import Renewal.FileSystem.Operation
import Renewal.Proofs.Outcome
import Renewal.Proofs.TreeLookup

/-! # Where paths lead

What one step along a path can be is said once, by the rules of `Trail`; names lead somewhere
exactly if these rules lead there (`followLinks_eq_ok_iff`). Which place a path leads to is decided
by the directories and the links of a tree alone, so it stays the same while files come, go and
change. A path whose last link is not followed leads to its last name in the directory that the
names before it lead to.
-/

namespace Renewal

namespace Tree

variable {t u : Tree} {longest links : Nat} {followLast : Bool} {here place : Location}
  {name : EntryName} {names rest : List EntryName} {found : Found} {target : Bytes}
  {expand : Location → List EntryName → Except Errno Found}

/-- Trees with the same directories and the same links. -/
structure SamePassages (t u : Tree) : Prop where
  directory : ∀ l, u.get? l = some .directory ↔ t.get? l = some .directory
  link : ∀ l target, u.get? l = some (.link target) ↔ t.get? l = some (.link target)

namespace SamePassages

theorem refl (t : Tree) : SamePassages t t :=
  ⟨fun _ => Iff.rfl, fun _ _ => Iff.rfl⟩

theorem symm (same : SamePassages t u) : SamePassages u t :=
  ⟨fun l => (same.directory l).symm, fun l target => (same.link l target).symm⟩

end SamePassages

/-- A name that stands for an entry, not for the directory itself or the one above it. -/
def IsProper (name : EntryName) : Prop :=
  name ≠ dot ∧ name ≠ dotDot

/-- Nothing that a path can go through. -/
structure IsPlain (e : Option Entry) : Prop where
  notDirectory : e ≠ some .directory
  notLink : ∀ target, e ≠ some (.link target)

theorem IsPlain.none : IsPlain none :=
  ⟨by simp, by simp⟩

theorem IsPlain.file (data : Bytes) (mode : Nat) : IsPlain (some (.file data mode)) :=
  ⟨by simp, by simp⟩

theorem IsPlain.pipe : IsPlain (some .pipe) :=
  ⟨by simp, by simp⟩

section Steps

/-- One goes on only from a directory. -/
theorem followNames_outside (outside : t.get? here ≠ some .directory) :
    t.followNames longest followLast expand here (name :: rest) = .error .notDirectory := by
  rw [followNames, if_pos (by simpa [← isDirectory_iff] using outside)]

theorem followNames_long (directory : t.get? here = some .directory)
    (long : longest < name.length) :
    t.followNames longest followLast expand here (name :: rest) = .error .nameTooLong := by
  rw [followNames, if_neg (by simp [isDirectory_iff.mpr directory]), if_pos long]

theorem followNames_dot (directory : t.get? here = some .directory) (fits : dot.length ≤ longest) :
    t.followNames longest followLast expand here (dot :: rest) =
      t.followNames longest followLast expand here rest := by
  rw [followNames, if_neg (by simp [isDirectory_iff.mpr directory]), if_neg (by omega), if_pos rfl]

theorem followNames_dotDot (directory : t.get? here = some .directory)
    (fits : dotDot.length ≤ longest) :
    t.followNames longest followLast expand here (dotDot :: rest) =
      t.followNames longest followLast expand here.dropLast rest := by
  rw [followNames, if_neg (by simp [isDirectory_iff.mpr directory]), if_neg (by omega),
    if_neg (by decide), if_pos rfl]

/-- A step to a proper name in a directory. -/
theorem followNames_proper (directory : t.get? here = some .directory)
    (fits : name.length ≤ longest) (proper : IsProper name) (rest : List EntryName) :
    t.followNames longest followLast expand here (name :: rest) =
      match t.get? (here ++ [name]) with
      | none => if rest.isEmpty then .ok ⟨here ++ [name], none⟩ else .error .notFound
      | some (.link target) =>
        if rest.isEmpty && !followLast then .ok ⟨here ++ [name], some (.link target)⟩
        else expand (pathStart here target) (pathNames target ++ rest)
      | some _ => t.followNames longest followLast expand (here ++ [name]) rest := by
  have inside : ¬(!t.isDirectory here) = true := by
    simp [isDirectory_iff.mpr directory]
  have short : ¬longest < name.length := by omega
  rw [followNames, if_neg inside, if_neg short]
  exact (if_neg proper.1).trans (if_neg proper.2)

theorem followLinks_nil :
    t.followLinks longest followLast links here [] = .ok ⟨here, t.get? here⟩ := by
  cases links <;> rfl

theorem followLinks_dot (directory : t.get? here = some .directory) (fits : dot.length ≤ longest) :
    t.followLinks longest followLast links here (dot :: rest) =
      t.followLinks longest followLast links here rest := by
  cases links <;> exact followNames_dot directory fits

theorem followLinks_dotDot (directory : t.get? here = some .directory)
    (fits : dotDot.length ≤ longest) :
    t.followLinks longest followLast links here (dotDot :: rest) =
      t.followLinks longest followLast links here.dropLast rest := by
  cases links <;> exact followNames_dotDot directory fits

theorem followLinks_long (directory : t.get? here = some .directory)
    (long : longest < name.length) :
    t.followLinks longest followLast links here (name :: rest) = .error .nameTooLong := by
  cases links <;> exact followNames_long directory long

theorem followLinks_enter (directory : t.get? here = some .directory)
    (fits : name.length ≤ longest) (proper : IsProper name)
    (inside : t.get? (here ++ [name]) = some .directory) :
    t.followLinks longest followLast links here (name :: rest) =
      t.followLinks longest followLast links (here ++ [name]) rest := by
  cases links <;> rw [followLinks, followNames_proper directory fits proper, inside]

/-- A proper name at the end of a path that is no link is where the path leads. -/
theorem followLinks_last (directory : t.get? here = some .directory)
    (fits : name.length ≤ longest) (proper : IsProper name)
    (plain : ∀ target, t.get? (here ++ [name]) ≠ some (.link target)) :
    t.followLinks longest followLast links here [name] =
      .ok ⟨here ++ [name], t.get? (here ++ [name])⟩ := by
  cases entry : t.get? (here ++ [name]) with
  | none =>
    cases links <;> rw [followLinks, followNames_proper directory fits proper, entry] <;> rfl
  | some e =>
    cases e with
    | link target => exact absurd entry (plain target)
    | directory | pipe =>
      cases links <;> rw [followLinks, followNames_proper directory fits proper, entry, followNames,
        entry]
    | file data mode =>
      cases links <;> rw [followLinks, followNames_proper directory fits proper, entry, followNames,
        entry]

/-- A link in the last place is not followed unless that is wanted. -/
theorem followLinks_held (directory : t.get? here = some .directory)
    (fits : name.length ≤ longest) (proper : IsProper name)
    (entry : t.get? (here ++ [name]) = some (.link target)) :
    t.followLinks longest false links here [name] =
      .ok ⟨here ++ [name], some (.link target)⟩ := by
  cases links <;> rw [followLinks, followNames_proper directory fits proper, entry] <;> rfl

theorem followLinks_link (directory : t.get? here = some .directory)
    (fits : name.length ≤ longest) (proper : IsProper name)
    (entry : t.get? (here ++ [name]) = some (.link target))
    (further : followLast = true ∨ rest ≠ []) :
    t.followLinks longest followLast (links + 1) here (name :: rest) =
      t.followLinks longest followLast links (pathStart here target)
        (pathNames target ++ rest) := by
  have goesOn : ¬(rest.isEmpty && !followLast) = true := by
    rcases further with last | more
    · simp [last]
    · simp [more]
  rw [followLinks, followNames_proper directory fits proper, entry]
  exact if_neg goesOn

end Steps

/-- Names lead from a place to what is found, through at most so many links. -/
inductive Trail (t : Tree) (longest : Nat) (followLast : Bool) :
    (links : Nat) → Location → List EntryName → Found → Prop
  | nil {links : Nat} {here : Location} :
      Trail t longest followLast links here [] ⟨here, t.get? here⟩
  | dot {links : Nat} {here : Location} {rest : List EntryName} {found : Found}
      (directory : t.get? here = some .directory) (fits : Tree.dot.length ≤ longest)
      (onward : Trail t longest followLast links here rest found) :
      Trail t longest followLast links here (Tree.dot :: rest) found
  | up {links : Nat} {here : Location} {rest : List EntryName} {found : Found}
      (directory : t.get? here = some .directory) (fits : dotDot.length ≤ longest)
      (onward : Trail t longest followLast links here.dropLast rest found) :
      Trail t longest followLast links here (dotDot :: rest) found
  | enter {links : Nat} {here : Location} {name : EntryName} {rest : List EntryName}
      {found : Found} (directory : t.get? here = some .directory) (fits : name.length ≤ longest)
      (proper : IsProper name) (inside : t.get? (here ++ [name]) = some .directory)
      (onward : Trail t longest followLast links (here ++ [name]) rest found) :
      Trail t longest followLast links here (name :: rest) found
  | stop {links : Nat} {here : Location} {name : EntryName}
      (directory : t.get? here = some .directory) (fits : name.length ≤ longest)
      (proper : IsProper name) (plain : IsPlain (t.get? (here ++ [name]))) :
      Trail t longest followLast links here [name] ⟨here ++ [name], t.get? (here ++ [name])⟩
  | hold {links : Nat} {here : Location} {name : EntryName} {target : Bytes}
      (directory : t.get? here = some .directory) (fits : name.length ≤ longest)
      (proper : IsProper name) (entry : t.get? (here ++ [name]) = some (.link target))
      (last : followLast = false) :
      Trail t longest followLast links here [name] ⟨here ++ [name], some (.link target)⟩
  | link {links : Nat} {here : Location} {name : EntryName} {rest : List EntryName}
      {found : Found} {target : Bytes} (directory : t.get? here = some .directory)
      (fits : name.length ≤ longest) (proper : IsProper name)
      (entry : t.get? (here ++ [name]) = some (.link target))
      (further : followLast = true ∨ rest ≠ [])
      (onward : Trail t longest followLast links (pathStart here target)
        (pathNames target ++ rest) found) :
      Trail t longest followLast (links + 1) here (name :: rest) found

theorem Trail.directory_of_cons
    (trail : Trail t longest followLast links here (name :: rest) found) :
    t.get? here = some .directory := by
  cases trail <;> assumption

private theorem trail_of_followNames
    (expands : ∀ l rest result, expand l rest = .ok result →
      ∃ fewer, links = fewer + 1 ∧ Trail t longest followLast fewer l rest result)
    (leads : t.followNames longest followLast expand here names = .ok found) :
    Trail t longest followLast links here names found := by
  induction names generalizing here with
  | nil =>
    cases leads
    exact .nil
  | cons name rest ih =>
    by_cases directory : t.get? here = some .directory
    swap
    · rw [followNames_outside directory] at leads
      cases leads
    by_cases fits : name.length ≤ longest
    swap
    · rw [followNames_long directory (not_le.mp fits)] at leads
      cases leads
    by_cases isDot : name = dot
    · subst isDot
      rw [followNames_dot directory fits] at leads
      exact .dot directory fits (ih leads)
    by_cases isDotDot : name = dotDot
    · subst isDotDot
      rw [followNames_dotDot directory fits] at leads
      exact .up directory fits (ih leads)
    have proper : IsProper name := ⟨isDot, isDotDot⟩
    rw [followNames_proper directory fits proper] at leads
    -- At what is no passage the names have come to their end.
    have stops : IsPlain (t.get? (here ++ [name])) →
        Trail t longest followLast links (here ++ [name]) rest found →
        Trail t longest followLast links here (name :: rest) found := by
      intro plain onward
      cases rest with
      | nil =>
        cases onward
        exact .stop directory fits proper plain
      | cons next rest => exact absurd onward.directory_of_cons plain.notDirectory
    cases entry : t.get? (here ++ [name]) with
    | none =>
      rw [entry] at leads stops
      by_cases ended : rest = []
      · subst ended
        cases leads
        refine stops .none ?_
        rw [← entry]
        exact .nil
      · simp [ended] at leads
    | some e =>
      rw [entry] at leads stops
      cases e with
      | directory => exact .enter directory fits proper entry (ih leads)
      | file data mode => exact stops (.file data mode) (ih leads)
      | pipe => exact stops .pipe (ih leads)
      | link target =>
        by_cases held : (rest.isEmpty && !followLast) = true
        · simp only [held, ↓reduceIte] at leads
          cases leads
          obtain ⟨ended, last⟩ : rest = [] ∧ followLast = false := by simpa using held
          subst ended
          exact .hold directory fits proper entry last
        · simp only [held, Bool.false_eq_true, ↓reduceIte] at leads
          obtain ⟨fewer, rfl, onward⟩ := expands _ _ _ leads
          refine .link directory fits proper entry ?_ onward
          cases followLast with
          | true => exact .inl rfl
          | false => exact .inr (by simpa using held)

/-- Names lead somewhere exactly if they can be followed to there. -/
theorem followLinks_eq_ok_iff :
    t.followLinks longest followLast links here names = .ok found ↔
      Trail t longest followLast links here names found := by
  constructor
  · intro leads
    induction links generalizing here names found with
    | zero =>
      refine trail_of_followNames ?_ leads
      intro _ _ _ impossible
      cases impossible
    | succ links ih =>
      exact trail_of_followNames (fun _ _ _ onward => ⟨links, rfl, ih onward⟩) leads
  · intro trail
    induction trail with
    | nil => exact followLinks_nil
    | dot directory fits _ ih => rw [followLinks_dot directory fits, ih]
    | up directory fits _ ih => rw [followLinks_dotDot directory fits, ih]
    | enter directory fits proper inside _ ih =>
      rw [followLinks_enter directory fits proper inside, ih]
    | stop directory fits proper plain => exact followLinks_last directory fits proper plain.notLink
    | hold directory fits proper entry last =>
      rw [last]
      exact followLinks_held directory fits proper entry
    | link directory fits proper entry further _ ih =>
      rw [followLinks_link directory fits proper entry further, ih]

namespace Trail

/-- Names lead to the same place in trees with the same directories and links. -/
theorem transfer (trail : Trail t longest followLast links here names found)
    (same : SamePassages t u) :
    Trail u longest followLast links here names ⟨found.location, u.get? found.location⟩ := by
  induction trail with
  | nil => exact .nil
  | dot directory fits _ ih => exact .dot ((same.directory _).mpr directory) fits ih
  | up directory fits _ ih => exact .up ((same.directory _).mpr directory) fits ih
  | enter directory fits proper inside _ ih =>
    exact .enter ((same.directory _).mpr directory) fits proper ((same.directory _).mpr inside) ih
  | stop directory fits proper plain =>
    refine .stop ((same.directory _).mpr directory) fits proper ⟨?_, fun target => ?_⟩
    · exact (same.directory _).not.mpr plain.notDirectory
    · exact (same.link _ target).not.mpr (plain.notLink target)
  | hold directory fits proper entry last =>
    have entry' := (same.link _ _).mpr entry
    rw [entry']
    exact .hold ((same.directory _).mpr directory) fits proper entry' last
  | link directory fits proper entry further _ ih =>
    exact .link ((same.directory _).mpr directory) fits proper ((same.link _ _).mpr entry) further
      ih

/-- The last name in a directory, if a link there is not followed. -/
theorem last (directory : t.get? here = some .directory) (fits : name.length ≤ longest)
    (proper : IsProper name) : Trail t longest false links here [name]
      ⟨here ++ [name], t.get? (here ++ [name])⟩ := by
  by_cases link : ∃ target, t.get? (here ++ [name]) = some (.link target)
  · obtain ⟨target, entry⟩ := link
    rw [entry]
    exact .hold directory fits proper entry rfl
  · rw [← followLinks_eq_ok_iff]
    exact followLinks_last directory fits proper fun target entry => link ⟨target, entry⟩

/-- One more name after names that lead to a directory. -/
theorem append_last {around : Location} (trail : Trail t longest true links here names found)
    (directory : found = ⟨around, some .directory⟩) (proper : IsProper name)
    (fits : name.length ≤ longest) : Trail t longest false links here (names ++ [name])
      ⟨around ++ [name], t.get? (around ++ [name])⟩ := by
  induction trail with
  | nil =>
    injection directory with samePlace entry
    subst samePlace
    exact .last entry fits proper
  | dot here fits _ ih => exact .dot here fits (ih directory)
  | up here fits _ ih => exact .up here fits (ih directory)
  | enter here fits inner inside _ ih => exact .enter here fits inner inside (ih directory)
  | stop _ _ _ plain =>
    injection directory with _ entry
    exact absurd entry plain.notDirectory
  | hold _ _ _ _ last => cases last
  | link here fits inner entry _ _ ih =>
    have onward := ih directory
    rw [List.append_assoc] at onward
    exact .link here fits inner entry (.inr (by simp)) onward

/-- Following the last link makes no difference to a path that does not end at one. -/
theorem of_unfollowed (trail : Trail t longest false links here names found)
    (plain : ∀ target, found.entry ≠ some (.link target)) :
    Trail t longest followLast links here names found := by
  induction trail with
  | nil => exact .nil
  | dot directory fits _ ih => exact .dot directory fits (ih plain)
  | up directory fits _ ih => exact .up directory fits (ih plain)
  | enter directory fits proper inside _ ih => exact .enter directory fits proper inside (ih plain)
  | stop directory fits proper ends => exact .stop directory fits proper ends
  | hold => exact absurd rfl (plain _)
  | link directory fits proper entry further _ ih =>
    exact .link directory fits proper entry (.inr (further.resolve_left (by simp))) (ih plain)

end Trail

/-- A path leads to the same place in trees with the same directories and links. -/
theorem SamePassages.followLinks (same : SamePassages t u)
    (leads : t.followLinks longest followLast links here names = .ok found) :
    u.followLinks longest followLast links here names =
      .ok ⟨found.location, u.get? found.location⟩ :=
  followLinks_eq_ok_iff.mpr ((followLinks_eq_ok_iff.mp leads).transfer same)

theorem followNames_congr (same : u.get? = t.get?) (longest : Nat) (followLast : Bool)
    (expand : Location → List EntryName → Except Errno Found) :
    u.followNames longest followLast expand = t.followNames longest followLast expand := by
  funext here names
  induction names generalizing here with
  | nil => rw [followNames, followNames, same]
  | cons name rest ih => simp only [followNames, isDirectory, same, ih]

/-- Where names lead, or why they lead nowhere, is told by what stands at the places of a tree. -/
theorem followLinks_congr (same : u.get? = t.get?) (longest : Nat) (followLast : Bool)
    (links : Nat) :
    u.followLinks longest followLast links = t.followLinks longest followLast links := by
  induction links with
  | zero => exact followNames_congr same _ _ _
  | succ links ih => rw [followLinks, followLinks, ih, followNames_congr same]

/-- What is found at the end of a path is what stands there. -/
theorem entry_of_followLinks
    (leads : t.followLinks longest followLast links here names = .ok found) :
    found.entry = t.get? found.location := by
  have again := (SamePassages.refl t).followLinks leads
  rw [leads] at again
  injection again with same
  rw [same]

/-- The last name in a directory that the names before it lead to is where the path leads, if the
last link is not followed. -/
theorem followLinks_append_of_directory {around : Location} (proper : IsProper name)
    (fits : name.length ≤ longest)
    (leads : t.followLinks longest true links here names = .ok ⟨around, some .directory⟩) :
    t.followLinks longest false links here (names ++ [name]) =
      .ok ⟨around ++ [name], t.get? (around ++ [name])⟩ :=
  followLinks_eq_ok_iff.mpr ((followLinks_eq_ok_iff.mp leads).append_last rfl proper fits)

/-- Following the last link makes no difference to a path that does not end at one. -/
theorem followLinks_of_unfollowed
    (leads : t.followLinks longest false links here names = .ok found)
    (plain : ∀ target, found.entry ≠ some (.link target)) :
    t.followLinks longest followLast links here names = .ok found :=
  followLinks_eq_ok_iff.mpr ((followLinks_eq_ok_iff.mp leads).of_unfollowed plain)

theorem Closed.dropLast (closed : t.Closed) (directory : t.get? here = some .directory) :
    t.get? here.dropLast = some .directory := by
  induction here using List.reverseRecOn with
  | nil => rfl
  | append_singleton front name _ =>
    rw [List.dropLast_concat]
    exact closed front name (by rw [directory]; rfl)

theorem pathStart_directory (directory : t.get? here = some .directory) (target : Bytes) :
    t.get? (pathStart here target) = some .directory := by
  unfold pathStart
  split
  · rfl
  · exact directory

/-- Names that lead to nothing end with the name of what is missing. -/
theorem Trail.last_of_missing (closed : t.Closed)
    (trail : Trail t longest false links here names found)
    (start : t.get? here = some .directory ∨ names ≠ []) (missing : found.entry = none) :
    ∃ last around, names.getLast? = some last ∧ IsProper last ∧
      found.location = around ++ [last] ∧ t.get? around = some .directory := by
  induction trail with
  | nil =>
    have directory := start.resolve_right (not_not.mpr rfl)
    cases directory.symm.trans missing
  | dot directory _ _ ih =>
    obtain ⟨last, around, ends, found⟩ := ih (.inl directory) missing
    exact ⟨last, around, by simp [List.getLast?_cons, ends], found⟩
  | up directory _ _ ih =>
    obtain ⟨last, around, ends, found⟩ := ih (.inl (closed.dropLast directory)) missing
    exact ⟨last, around, by simp [List.getLast?_cons, ends], found⟩
  | enter _ _ _ inside _ ih =>
    obtain ⟨last, around, ends, found⟩ := ih (.inl inside) missing
    exact ⟨last, around, by simp [List.getLast?_cons, ends], found⟩
  | stop directory _ proper _ => exact ⟨_, _, rfl, proper, rfl, directory⟩
  | hold => cases missing
  | link directory _ _ _ further _ ih =>
    obtain ⟨last, around, ends, found⟩ := ih (.inl (pathStart_directory directory _)) missing
    have more := further.resolve_left (by simp)
    rw [List.getLast?_append_of_ne_nil _ more] at ends
    exact ⟨last, around, by simp [List.getLast?_cons, ends], found⟩

/-- A path to nothing ends with the name of what is missing. -/
theorem Closed.last_of_followLinks (closed : t.Closed) {last : EntryName}
    (leads : t.followLinks longest false links here (names ++ [last]) = .ok ⟨place, none⟩) :
    IsProper last ∧ ∃ around, place = around ++ [last] ∧ t.get? around = some .directory := by
  obtain ⟨last', around, ends, proper, same⟩ :=
    (followLinks_eq_ok_iff.mp leads).last_of_missing closed (.inr (by simp)) rfl
  rw [List.getLast?_concat] at ends
  cases ends
  exact ⟨proper, around, same⟩

/-- A path that is followed to its end does not lead to a link. -/
theorem Closed.followLinks_no_link (closed : t.Closed)
    (start : t.get? here = some .directory ∨ names ≠ [])
    (leads : t.followLinks longest true links here names = .ok found) (target : Bytes) :
    found.entry ≠ some (.link target) := by
  rw [followLinks_eq_ok_iff] at leads
  induction leads with
  | nil =>
    have directory := start.resolve_right (not_not.mpr rfl)
    simp [directory]
  | dot directory _ _ ih => exact ih (.inl directory)
  | up directory _ _ ih => exact ih (.inl (closed.dropLast directory))
  | enter _ _ _ inside _ ih => exact ih (.inl inside)
  | stop _ _ _ plain => exact plain.notLink target
  | hold _ _ _ _ last => cases last
  | link directory _ _ _ _ _ ih => exact ih (.inl (pathStart_directory directory _))

/-- A path has at least one name, be it the dot of a slash at its end. -/
theorem pathNames_ne_nil {bytes : Bytes} (written : bytes ≠ []) : pathNames bytes ≠ [] := by
  unfold pathNames
  simp only
  split
  · simp
  · rename_i ending
    intro none
    -- Without a name every byte is a slash, the last one too.
    have onlySlashes : ∀ bytes : Bytes, (cutAtSlash bytes).filter (fun name => !name.isEmpty) = [] →
        ∀ b ∈ bytes, b = slash := by
      intro bytes
      induction bytes with
      | nil => simp
      | cons b rest ih =>
        intro none
        rw [cutAtSlash] at none
        split at none
        · rename_i isSlash
          intro c member
          rcases List.mem_cons.mp member with rfl | member
          · exact isSlash
          · exact ih (by simpa using none) c member
        · split at none <;> simp at none
    have lastSlash := onlySlashes bytes none _ (List.getLast_mem written)
    exact ending (by rw [List.getLast?_eq_some_getLast written, lastSlash])

end Tree

namespace World

open Renewal.Tree

variable {w v : World} {path : Text} {followLast : Bool} {found : Found} {place : Location}

theorem find_eq_ok_iff :
    w.find path followLast = .ok found ↔
      Encoding.nameBytes path ≠ [] ∧ (Encoding.nameBytes path).length ≤ w.limits.path ∧
        w.tree.followLinks w.limits.name followLast w.limits.links
          (pathStart w.directory (Encoding.nameBytes path))
          (pathNames (Encoding.nameBytes path)) = .ok found := by
  unfold find resolve
  by_cases written : Encoding.nameBytes path = []
  · simp [written]
  · by_cases short : (Encoding.nameBytes path).length ≤ w.limits.path
    · simp [written, short, Nat.not_lt.mpr short]
    · simp [written, short, Nat.not_le.mp short]

theorem entry_of_find (finds : w.find path followLast = .ok found) :
    found.entry = w.tree.get? found.location :=
  entry_of_followLinks (find_eq_ok_iff.mp finds).2.2

/-- A path leads to the same place where the directories and the links are the same. -/
theorem find_of_passages (directory : v.directory = w.directory) (limits : v.limits = w.limits)
    (same : SamePassages w.tree v.tree) (finds : w.find path followLast = .ok found) :
    v.find path followLast = .ok ⟨found.location, v.tree.get? found.location⟩ := by
  obtain ⟨written, short, leads⟩ := find_eq_ok_iff.mp finds
  rw [find_eq_ok_iff, limits, directory]
  exact ⟨written, short, same.followLinks leads⟩

theorem find_transfer (setting : v.setting = w.setting) (same : SamePassages w.tree v.tree)
    (finds : w.find path followLast = .ok found) :
    v.find path followLast = .ok ⟨found.location, v.tree.get? found.location⟩ :=
  find_of_passages (directory_of_setting setting) (limits_of_setting setting) same finds

theorem find_congr (tree : v.tree.get? = w.tree.get?) (directory : v.directory = w.directory)
    (limits : v.limits = w.limits) : v.find path followLast = w.find path followLast := by
  unfold find resolve
  rw [directory, limits, followLinks_congr tree]

theorem find_of_unfollowed (finds : w.find path false = .ok found)
    (plain : ∀ target, found.entry ≠ some (.link target)) :
    w.find path followLast = .ok found := by
  obtain ⟨written, short, leads⟩ := find_eq_ok_iff.mp finds
  exact find_eq_ok_iff.mpr ⟨written, short, followLinks_of_unfollowed leads plain⟩

/-- A path that is followed to its end does not lead to a link. -/
theorem find_no_link (closed : w.tree.Closed) (finds : w.find path = .ok found) (target : Bytes) :
    found.entry ≠ some (.link target) := by
  obtain ⟨written, _, leads⟩ := find_eq_ok_iff.mp finds
  exact closed.followLinks_no_link (.inr (pathNames_ne_nil written)) leads target

end World

namespace FileSystem

open Renewal.Tree World

variable {w v : World} {path : Text} {place : Location}

theorem lastPlace_eq_ok_iff :
    lastPlace w path = .ok place ↔
      Encoding.nameBytes path ≠ [] ∧ (Encoding.nameBytes path).length ≤ w.limits.path ∧
        ∃ names last around, pathNames (Encoding.nameBytes path) = names ++ [last] ∧
          IsProper last ∧ last.length ≤ w.limits.name ∧ place = around ++ [last] ∧
          w.tree.followLinks w.limits.name true w.limits.links
            (pathStart w.directory (Encoding.nameBytes path)) names =
              .ok ⟨around, some .directory⟩ := by
  unfold lastPlace
  by_cases written : Encoding.nameBytes path = []
  · simp [written]
  · by_cases short : (Encoding.nameBytes path).length ≤ w.limits.path
    · obtain ⟨names, last, cut⟩ :=
        (List.eq_nil_or_concat (pathNames (Encoding.nameBytes path))).resolve_left
          (pathNames_ne_nil written)
      rw [List.concat_eq_append] at cut
      simp only [cut, List.isEmpty_iff, written, ↓reduceIte, Nat.not_lt.mpr short, ne_eq,
        not_false_eq_true, short, true_and, List.dropLast_concat, List.getLast?_concat]
      constructor
      · intro places
        split at places
        · cases places
        · cases places
        · rename_i around leads
          split at places
          · cases places
          · rename_i proper
            split at places
            · cases places
            · rename_i fits
              cases places
              exact ⟨names, last, around, rfl, not_or.mp proper, by omega, rfl, leads⟩
        · cases places
      · rintro ⟨names', last', around, same, proper, fits, rfl, leads⟩
        obtain ⟨rfl, sameLast⟩ := List.append_inj' same rfl
        cases sameLast
        rw [leads]
        simp [proper.1, proper.2, Nat.not_lt.mpr fits]
    · simp [written, short, Nat.not_le.mp short]

theorem lastPlace_congr (tree : v.tree.get? = w.tree.get?) (directory : v.directory = w.directory)
    (limits : v.limits = w.limits) : lastPlace v path = lastPlace w path := by
  unfold lastPlace
  rw [directory, limits, followLinks_congr tree]

/-- The last place of a path is where the path leads if its last link is not followed. -/
theorem find_of_lastPlace (places : lastPlace w path = .ok place) :
    w.find path false = .ok ⟨place, w.tree.get? place⟩ := by
  obtain ⟨written, short, names, last, around, cut, proper, fits, rfl, leads⟩ :=
    lastPlace_eq_ok_iff.mp places
  rw [find_eq_ok_iff, cut]
  exact ⟨written, short, followLinks_append_of_directory proper fits leads⟩

theorem lastPlace_inner (places : lastPlace w path = .ok place) : place ≠ [] := by
  obtain ⟨-, -, names, last, around, -, -, -, rfl, -⟩ := lastPlace_eq_ok_iff.mp places
  simp

/-- The last place of a path stands in a directory. -/
theorem lastPlace_around (places : lastPlace w path = .ok place) :
    ∃ around last, place = around ++ [last] ∧ w.tree.get? around = some .directory := by
  obtain ⟨-, -, names, last, around, -, -, -, rfl, leads⟩ := lastPlace_eq_ok_iff.mp places
  exact ⟨around, last, rfl, (entry_of_followLinks leads).symm⟩

theorem lastPlace_transfer (setting : v.setting = w.setting)
    (same : SamePassages w.tree v.tree) (places : lastPlace w path = .ok place) :
    lastPlace v path = .ok place := by
  obtain ⟨written, short, names, last, around, cut, proper, fits, rfl, leads⟩ :=
    lastPlace_eq_ok_iff.mp places
  have directory : v.tree.get? around = some .directory :=
    (same.directory around).mpr (entry_of_followLinks leads).symm
  rw [lastPlace_eq_ok_iff, limits_of_setting setting, directory_of_setting setting]
  refine ⟨written, short, names, last, around, cut, proper, fits, rfl, ?_⟩
  rw [same.followLinks leads, directory]

end FileSystem

end Renewal
