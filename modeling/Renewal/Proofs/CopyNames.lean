import Renewal.Proofs.CopySearch

/-! # Names of saved copies, there and back

The name of a copy is made by adding the suffix and read by taking it away again. The two agree on
names of one line (`Backup.livePath?_eq_some_iff`): the copy of a file whose name has a newline is
not recognized, and a name that ends with the suffix and a newline counts as the copy of what stands
before the suffix. A single dot with the suffix is the only name that cannot be read at all
(`Backup.copies_read_back`).
-/

namespace Renewal.Backup

variable {path live : Path} {suffix : Text}

theorem name_of_clean (clean : path.Clean) (named : path.names ≠ []) :
    Path.IsPart path.name ∧ path = ⟨path.root, path.names.dropLast ++ [path.name]⟩ := by
  obtain ⟨front, last, names⟩ := (List.eq_nil_or_concat path.names).resolve_left named
  rw [List.concat_eq_append] at names
  have called : path.name = last := by simp [Path.name, names]
  refine ⟨clean _ (by simp [called, names]), ?_⟩
  rw [called, names, List.dropLast_concat, ← names]

theorem clean_renamed (clean : path.Clean) {name : Text} (part : Path.IsPart name) :
    Path.Clean ⟨path.root, path.names.dropLast ++ [name]⟩ := by
  intro other member
  rcases List.mem_append.mp member with front | last
  · exact clean other (List.mem_of_mem_dropLast front)
  · exact List.mem_singleton.mp last ▸ part

/-- Only the name changes from a file to its copy. -/
theorem pathFor_eq_ok_iff (clean : live.Clean) (named : live.names ≠ [])
    (uncut : Path.separator ∉ suffix) :
    pathFor live suffix = .ok path ↔
      path = ⟨live.root, live.names.dropLast ++ [live.name ++ suffix]⟩ := by
  obtain ⟨part, -⟩ := name_of_clean clean named
  have isName := isName_of_isPart (part.append (t := suffix) (by simp [part.uncut, uncut]))
  rw [pathFor, Path.withName, if_neg (by simpa using part.written), if_pos isName, Except.ok.injEq,
    eq_comm]

theorem livePath?_eq_none_iff (part : Path.IsPart path.name) :
    livePath? path suffix = .ok none ↔
      ∀ stem : Text, stem ≠ [] → ('\n' : CodePoint) ∉ stem →
        path.name ≠ stem ++ suffix ∧ path.name ≠ stem ++ (suffix ++ [('\n' : CodePoint)]) := by
  cases cut : liveName? path.name suffix with
  | none =>
    refine iff_of_true (livePath?_of_none cut) fun stem written line => ?_
    have other : liveName? path.name suffix ≠ some stem := by simp [cut]
    exact ⟨fun same => other (liveName?_eq_some_iff.mpr ⟨.inl same, written, line⟩),
      fun same => other (liveName?_eq_some_iff.mpr ⟨.inr same, written, line⟩)⟩
  | some stem =>
    obtain ⟨same, written, line⟩ := liveName?_eq_some_iff.mp cut
    refine iff_of_false ?_ fun none =>
      same.elim (none stem written line).1 (none stem written line).2
    rw [livePath?_of_some part cut]
    split <;> simp

/-- What is read as the copy of a file is its copy, a newline at the end apart, and the file has a
name of one line. -/
theorem livePath?_eq_some_iff (clean : path.Clean) (named : path.names ≠ [])
    (uncut : Path.separator ∉ suffix) :
    livePath? path suffix = .ok (some live) ↔
      (live.Clean ∧ live.names ≠ [] ∧ ('\n' : CodePoint) ∉ live.name) ∧
        (pathFor live suffix = .ok path ∨
          pathFor live (suffix ++ [('\n' : CodePoint)]) = .ok path) := by
  obtain ⟨part, whole⟩ := name_of_clean clean named
  have uncut' : Path.separator ∉ suffix ++ [('\n' : CodePoint)] := by
    rw [List.mem_append, List.mem_singleton, not_or]
    exact ⟨uncut, by decide⟩
  constructor
  · intro leads
    cases cut : liveName? path.name suffix with
    | none => simp [livePath?_of_none cut] at leads
    | some stem =>
      obtain ⟨same, written, line⟩ := liveName?_eq_some_iff.mp cut
      rw [livePath?_of_some part cut] at leads
      split at leads
      · cases leads
      rename_i notDot
      obtain rfl : _ = live := Option.some.inj (Except.ok.inj leads)
      have stemPart : Path.IsPart stem := by
        refine ⟨written, notDot, fun slash => part.uncut ?_⟩
        rcases same with same | same <;> exact same ▸ List.mem_append_left _ slash
      have liveClean := clean_renamed clean stemPart
      refine ⟨⟨liveClean, by simp, by rwa [name_concat]⟩, ?_⟩
      rw [pathFor_eq_ok_iff liveClean (by simp) uncut, pathFor_eq_ok_iff liveClean (by simp) uncut',
        name_concat, List.dropLast_concat]
      refine same.imp (fun same => ?_) fun same => ?_
      · rw [← same]
        exact whole
      · rw [← same]
        exact whole
  · rintro ⟨⟨liveClean, liveNamed, line⟩, copy⟩
    obtain ⟨livePart, liveWhole⟩ := name_of_clean liveClean liveNamed
    rw [pathFor_eq_ok_iff liveClean liveNamed uncut,
      pathFor_eq_ok_iff liveClean liveNamed uncut'] at copy
    have cut : liveName? path.name suffix = some live.name := by
      refine liveName?_eq_some_iff.mpr ⟨copy.imp ?_ ?_, livePart.written, line⟩ <;>
      · intro same
        rw [same, name_concat]
    have around : live.root = path.root ∧ live.names.dropLast = path.names.dropLast := by
      rcases copy with same | same <;> simp [same]
    rw [livePath?_of_some part cut, if_neg livePart.notDot, ← around.1, ← around.2, ← liveWhole]

/-- The names that leave a single dot without the suffix. -/
def dottedCopies : List Text :=
  [".-original", ".-original\n"]

theorem livePath?_eq_error_iff_dotted (part : Path.IsPart path.name) {e : NameError} :
    livePath? path defaultSuffix = .error e ↔ e = .invalid "." ∧ path.name ∈ dottedCopies := by
  have dotted : ∀ stem : Text, stem = "." → (stem ≠ [] ∧ ('\n' : CodePoint) ∉ stem) := by
    rintro _ rfl
    decide
  rw [livePath?_eq_error_iff part, liveName?_eq_some_iff, and_iff_left (dotted _ rfl), dottedCopies,
    List.mem_cons, List.mem_singleton]
  rfl

/-- A search among given paths stops at a name that leaves a single dot, and at nothing else. -/
theorem findAll_fixed_ensures (root : Path) {paths : List Path} (w : World)
    (parts : ∀ path ∈ paths, Path.IsPart path.name) :
    (findAll root (.fixed paths) defaultSuffix).Ensures w
      (fun _ _ => ∀ path ∈ paths, path.name ∉ dottedCopies)
      (fun _ _ => ∃ path ∈ paths, path.name ∈ dottedCopies) := by
  change (pairsOf defaultSuffix paths).Ensures w _ _
  refine (pairsOf_ensures w defaultSuffix paths).mono ?_ ?_
  · rintro _ _ ⟨-, -, all⟩ path member dotted
    obtain ⟨live, leads⟩ := all path member
    rw [(livePath?_eq_error_iff_dotted (parts path member)).mpr ⟨rfl, dotted⟩] at leads
    cases leads
  · rintro _ _ ⟨-, path, member, e, stuck⟩
    exact ⟨path, member, ((livePath?_eq_error_iff_dotted (parts path member)).mp stuck).2⟩

/-- How far reading the names of copies is the inverse of making them. Of paths that name something,
those that cannot be read have a single dot before the suffix. Those that are read as copies are the
copies of files with names of one line, a newline at the end apart. The copy of such a file is read
back, and that of any other file is not. -/
theorem copies_read_back (root : Path) (paths : List Path) (w : World)
    (files : ∀ path ∈ paths, path.Clean ∧ path.names ≠ []) :
    (∀ path ∈ paths,
      (∀ e, livePath? path defaultSuffix = .error e ↔
        e = .invalid "." ∧ path.name ∈ dottedCopies) ∧
      (∀ live, livePath? path defaultSuffix = .ok (some live) ↔
        (live.Clean ∧ live.names ≠ [] ∧ ('\n' : CodePoint) ∉ live.name) ∧
          (pathFor live defaultSuffix = .ok path ∨
            pathFor live (defaultSuffix ++ [('\n' : CodePoint)]) = .ok path)) ∧
      (livePath? path defaultSuffix = .ok none ↔
        ∀ stem : Text, stem ≠ [] → ('\n' : CodePoint) ∉ stem →
          path.name ≠ stem ++ defaultSuffix ∧
            path.name ≠ stem ++ (defaultSuffix ++ [('\n' : CodePoint)])) ∧
      ∃ copy, pathFor path defaultSuffix = .ok copy ∧
        (livePath? copy defaultSuffix = .ok (some path) ↔ ('\n' : CodePoint) ∉ path.name)) ∧
    ((∃ failure v, (findAll root (.fixed paths) defaultSuffix).run w = .error failure v) ↔
      ∃ path ∈ paths, path.name ∈ dottedCopies) := by
  have uncut : Path.separator ∉ defaultSuffix := by decide
  refine ⟨fun path member => ?_, ?_⟩
  · obtain ⟨clean, named⟩ := files path member
    obtain ⟨part, -⟩ := name_of_clean clean named
    refine ⟨fun e => livePath?_eq_error_iff_dotted part,
      fun live => livePath?_eq_some_iff clean named uncut, livePath?_eq_none_iff part, ?_⟩
    have copy := (pathFor_eq_ok_iff clean named uncut).mpr rfl
    have copyPart := part.append (t := defaultSuffix) (by simp [part.uncut, uncut])
    refine ⟨_, copy, ?_⟩
    rw [livePath?_eq_some_iff (clean_renamed clean copyPart) (by simp) uncut]
    exact ⟨fun read => read.1.2.2, fun line => ⟨⟨clean, named, line⟩, .inl copy⟩⟩
  · have ends := findAll_fixed_ensures root w fun path member =>
      (name_of_clean (files path member).1 (files path member).2).1
    constructor
    · rintro ⟨failure, v, stops⟩
      exact ends.of_error stops
    · rintro ⟨path, member, dotted⟩
      cases search : (findAll root (.fixed paths) defaultSuffix).run w with
      | ok pairs v => exact absurd dotted (ends.of_ok search path member)
      | error failure v => exact ⟨failure, v, rfl⟩

/-- The name of a copy, and two dots with the suffix, which are read as well. -/
theorem copies_read_back_script :
    livePath? (Path.ofText "lib/a.tcl-original") defaultSuffix =
      .ok (some (Path.ofText "lib/a.tcl")) ∧
    ¬∃ failure v, (findAll (Path.ofText "lib") (.fixed [Path.ofText "lib/a.tcl-original",
      Path.ofText "lib/..-original"]) defaultSuffix).run { tree := {} } = .error failure v := by
  have exact := copies_read_back (Path.ofText "lib")
    [Path.ofText "lib/a.tcl-original", Path.ofText "lib/..-original"] { tree := {} } (by
      simp only [List.mem_cons, List.not_mem_nil, or_false, forall_eq_or_imp, forall_eq]
      exact ⟨⟨Path.clean_ofText _, by decide⟩, ⟨Path.clean_ofText _, by decide⟩⟩)
  refine ⟨((exact.1 _ List.mem_cons_self).2.1 _).mpr
    ⟨⟨Path.clean_ofText _, by decide, by decide⟩, .inl (by decide)⟩, fun stops => ?_⟩
  obtain ⟨path, member, dotted⟩ := exact.2.mp stops
  simp only [List.mem_cons, List.not_mem_nil, or_false] at member
  rcases member with rfl | rfl <;> exact absurd dotted (by decide)

/-- Some names of files that are not read as the names of copies should be: one that stops the
search, one whose copy is not recognized, and one that counts as a copy but is none. -/
theorem names_misread :
    livePath? (Path.ofText ".-original") defaultSuffix = .error (.invalid ".") ∧
    (pathFor (Path.ofText "a\nb") defaultSuffix = .ok (Path.ofText "a\nb-original") ∧
      livePath? (Path.ofText "a\nb-original") defaultSuffix = .ok none) ∧
    livePath? (Path.ofText "a-original\n") defaultSuffix = .ok (some (Path.ofText "a")) := by
  decide

end Renewal.Backup
