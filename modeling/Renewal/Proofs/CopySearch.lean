import Renewal.Backup.Undo
import Renewal.Proofs.BackupPath
import Renewal.Proofs.Walk

/-! # Searching for saved copies

A search for saved copies walks through a tree and makes a pair of every path that has the form of a
copy. `Backup.findAll_ensures` tells which pairs it gives, for any suffix, and what can stop it: the
walk, or a file whose name leaves a single dot when the suffix is taken away.
-/

namespace Renewal.Backup

open Renewal.Tree World FileSystem

variable {w : World} {root : Path} {suffix : Text} {names : Location} {name full : EntryName}

/-- The pair that a search makes of a path. -/
def pairOf? (suffix : Text) (path : Path) : Option Pair :=
  match livePath? path suffix with
  | .ok (some live) => some ⟨path, live⟩
  | _ => none

theorem pairOf?_eq_some {path : Path} {pair : Pair} :
    pairOf? suffix path = some pair ↔
      path = pair.backup ∧ livePath? path suffix = .ok (some pair.live) := by
  unfold pairOf?
  split
  · rename_i live leads
    rw [leads, Option.some.injEq, Except.ok.injEq, Option.some.injEq]
    constructor
    · intro same
      cases same
      exact ⟨rfl, rfl⟩
    · intro same
      obtain ⟨rfl, rfl⟩ := same
      rfl
  · rename_i other
    exact iff_of_false (by simp) fun same => other _ same.2

/-- Making pairs changes nothing, and only a name that cannot be one stops it. -/
theorem pairsOf_ensures (w : World) (suffix : Text) (paths : List Path) :
    (pairsOf suffix paths).Ensures w
      (fun pairs v => w.Unmoved v ∧ pairs = paths.filterMap (pairOf? suffix) ∧
        ∀ path ∈ paths, ∃ live, livePath? path suffix = .ok live)
      (fun _ v => w.Unmoved v ∧ ∃ path ∈ paths, ∃ e, livePath? path suffix = .error e) := by
  induction paths generalizing w with
  | nil => exact ⟨.refl w, rfl, by simp⟩
  | cons path rest ih =>
    rw [pairsOf, Action.ensures_bind]
    cases leads : livePath? path suffix with
    | error e => exact ⟨.refl w, path, List.mem_cons_self, e, leads⟩
    | ok live =>
      have head : ∀ others, (∀ path ∈ others, ∃ live, livePath? path suffix = .ok live) →
          ∀ other ∈ path :: others, ∃ live, livePath? other suffix = .ok live := by
        intro others all other member
        rcases List.mem_cons.mp member with rfl | member
        · exact ⟨live, leads⟩
        · exact all other member
      rw [Action.ofExcept, Action.ensures_pure]
      cases live with
      | none =>
        have left : pairOf? suffix path = none := by rw [pairOf?, leads]
        dsimp only
        rw [Action.ensures_bind]
        refine (Action.log_ensures w _ _).mono ?_ fun _ _ => False.elim
        intro _ u unmoved
        refine (ih u).mono ?_ ?_
        · intro pairs v outcome
          obtain ⟨later, rfl, all⟩ := outcome
          exact ⟨unmoved.trans later, by rw [List.filterMap_cons_none left], head rest all⟩
        · intro _ v outcome
          obtain ⟨later, other, member, stuck⟩ := outcome
          exact ⟨unmoved.trans later, other, List.mem_cons_of_mem _ member, stuck⟩
      | some live =>
        have kept : pairOf? suffix path = some ⟨path, live⟩ := by rw [pairOf?, leads]
        dsimp only
        rw [Action.ensures_bind]
        refine (ih w).mono ?_ ?_
        · intro pairs v outcome
          obtain ⟨later, rfl, all⟩ := outcome
          exact ⟨later, by rw [List.filterMap_cons_some kept], head rest all⟩
        · intro _ v outcome
          obtain ⟨later, other, member, stuck⟩ := outcome
          exact ⟨later, other, List.mem_cons_of_mem _ member, stuck⟩

theorem livePath?_of_none {path : Path} (cut : liveName? path.name suffix = none) :
    livePath? path suffix = .ok none := by
  rw [livePath?, cut]

/-- A stem can take the place of the name, unless it is a single dot. -/
theorem livePath?_of_some {path : Path} (part : Path.IsPart path.name) {stem : Text}
    (cut : liveName? path.name suffix = some stem) :
    livePath? path suffix =
      if stem = ("." : Text) then .error (.invalid ".")
      else .ok (some ⟨path.root, path.names.dropLast ++ [stem]⟩) := by
  obtain ⟨whole, written, -⟩ := liveName?_eq_some_iff.mp cut
  have front : stem <+: path.name := by
    rcases whole with same | same <;> exact ⟨_, same.symm⟩
  rw [livePath?, cut]
  dsimp only
  rw [Path.withName, if_neg (by simpa using part.written)]
  by_cases dotted : stem = ("." : Text)
  · subst dotted
    rw [if_neg (by decide), if_pos rfl]
    rfl
  · have stemPart : Path.IsPart stem :=
      ⟨written, dotted, fun slash => part.uncut (front.subset slash)⟩
    rw [if_pos (isName_of_isPart stemPart), if_neg dotted]
    rfl

theorem livePath?_eq_error_iff {path : Path} (part : Path.IsPart path.name) {e : NameError} :
    livePath? path suffix = .error e ↔
      e = .invalid "." ∧ liveName? path.name suffix = some ("." : Text) := by
  cases cut : liveName? path.name suffix with
  | none => simp [livePath?_of_none cut]
  | some stem =>
    rw [livePath?_of_some part cut]
    by_cases dotted : stem = ("." : Text)
    · simp [dotted, eq_comm]
    · simp [dotted]

/-- A file whose name leaves a single dot without the suffix has no path that it could be the copy
of. -/
theorem livePath?_below_eq_error_iff (valid : IsEntryName full) :
    (∃ e, livePath? (root.below (names ++ [full])) suffix = .error e) ↔
      liveName? (Utf8.decode full) suffix = some ("." : Text) := by
  have named := name_below root names full
  simp only [livePath?_eq_error_iff (named.symm ▸ valid.isPart), named, exists_eq_left]

/-- A file below a root with which a search for saved copies cannot go on. -/
def Stumbles (w : World) (root : Path) (suffix : Text) : Prop :=
  ∃ names full, (∀ part ∈ names ++ [full], IsEntryName part) ∧
    leadsToFile w (root.below (names ++ [full])).text = true ∧
    liveName? (Utf8.decode full) suffix = some ("." : Text)

/-- A search for saved copies gives a pair for each path of a walk that has the form of a copy. -/
theorem findAll_ensures (sound : w.tree.Sound) (free : w.tree.LinkFree) (clean : root.Clean)
    (followLinks : Bool) (suffix : Text) :
    (findAll root (.native followLinks) suffix).Ensures w
      (fun pairs v => w.Unmoved v ∧ ∃ files,
        Walker.Walked w root (('*' : CodePoint) :: suffix) files ∧
        pairs = files.filterMap (pairOf? suffix) ∧
        ∀ path ∈ files, ∃ live, livePath? path suffix = .ok live)
      (fun _ v => w.Unmoved v ∧
        (¬Walker.Smooth w root (('*' : CodePoint) :: suffix) ∨ Stumbles w root suffix)) := by
  unfold findAll
  rw [Action.ensures_bind]
  refine (Walker.walkNative_ensures sound free clean followLinks _).mono ?_ ?_
  · intro files u outcome
    obtain ⟨unmoved, walked⟩ := outcome
    refine (pairsOf_ensures u suffix files).mono ?_ ?_
    · intro pairs v outcome
      obtain ⟨later, same, all⟩ := outcome
      exact ⟨unmoved.trans later, files, walked, same, all⟩
    · intro _ v outcome
      obtain ⟨later, path, member, stuck⟩ := outcome
      obtain ⟨names, full, rfl, valid, -, leads⟩ := (walked.mem_iff path).mp member
      exact ⟨unmoved.trans later, .inr ⟨names, full, valid, leads,
        (livePath?_below_eq_error_iff (valid full (by simp))).mp stuck⟩⟩
  · intro _ v outcome
    exact ⟨outcome.1, .inl outcome.2⟩

end Renewal.Backup
