import Renewal.Proofs.KeptCopies

/-! # Which saved copies are found again

A search for saved copies takes the suffix as a part of a file name pattern, while the name of a
copy is made with the suffix as it is. So a copy is found again exactly if its name matches the
pattern and is read as the name of the file and the suffix (`Backup.save_found`). Both hold for
every file if the suffix is made of characters other than an opening bracket; with brackets they
need not.
-/

namespace Renewal

open Renewal.Tree World FileSystem

theorem Resumes.find_eq {w u : World} (resumes : Resumes w u) (path : Text) (followLast : Bool) :
    u.find path followLast = w.find path followLast := by
  unfold World.find
  rw [resumes.tree, resumes.directory, resumes.limits]

namespace Backup

variable {w u v : World} {root path backup : Path} {suffix text encoding : Text}
  {names around : Location} {name : EntryName} {data new : Bytes} {mode : Nat}

/-- The name of a copy matches the pattern by which copies are searched for, and is read as the name
of the file and the suffix. -/
structure Recognized (suffix : Text) (name : EntryName) : Prop where
  fits : globMatches (('*' : CodePoint) :: suffix) (Utf8.decode name ++ suffix) = true
  called : Utf8.decode (name ++ Encoding.nameBytes suffix) = Utf8.decode name ++ suffix

/-- A suffix of characters without an opening bracket suits every name. -/
theorem recognized_of_plain (plain : ('[' : CodePoint) ∉ suffix)
    (scalar : ∀ c ∈ suffix, c.isSurrogate = false) (name : EntryName) : Recognized suffix name :=
  ⟨globMatches_of_suffix plain (List.suffix_append _ _),
    Encoding.decode_append_nameBytes name scalar⟩

/-- The path of a copy is one that a walk can give if its name can be read. -/
theorem backup_eq_below_iff (named : pathFor (root.below (names ++ [name])) suffix = .ok backup)
    {names' : Location} {full : EntryName} :
    backup = root.below (names' ++ [full]) ↔
      names' = names ∧ Utf8.decode full = Utf8.decode name ++ suffix := by
  obtain ⟨-, -, rfl⟩ := pathFor_eq_ok named
  rw [name_below]
  simp only [Path.below, List.map_append, List.map_cons, List.map_nil, ← List.append_assoc,
    List.dropLast_concat, Path.mk.injEq, true_and]
  constructor
  · intro same
    obtain ⟨front, last⟩ := List.append_inj' same rfl
    have sameNames := List.map_injective_iff.mpr Encoding.decode_injective
      (List.append_cancel_left front)
    exact ⟨sameNames.symm, (List.singleton_inj.mp last).symm⟩
  · intro same
    rw [same.1, same.2]

namespace Placed

variable {place : Location} {written : Text}

/-- What has been put in place has a name that an entry can have. -/
theorem names_valid (placed : Placed w v written place data mode)
    (names : ∀ l, (w.tree.get? l).isSome → ∀ part ∈ l, IsEntryName part) :
    ∀ l, (v.tree.get? l).isSome → ∀ part ∈ l, IsEntryName part := by
  have stands := stands_of_lastPlace placed.places
  have valid := isEntryName_of_stands stands placed.written
  obtain ⟨around, rfl, directory⟩ := stands.around
  exact names_update names (fun _ => ⟨directory, valid⟩) placed.tree

theorem linkFree (placed : Placed w v written place data mode) (free : w.tree.LinkFree) :
    v.tree.LinkFree :=
  free.update (by simp) placed.tree

/-- In a tree without links, a path has the same last place after a file has been put anywhere. -/
theorem lastPlace_linkFree (placed : Placed w v written place data mode) (free : w.tree.LinkFree)
    {other : Text} {goal : Location} (places : FileSystem.lastPlace w other = .ok goal) :
    FileSystem.lastPlace v other = .ok goal :=
  placed.lastPlace (fun _ _ link _ entry => absurd entry (free _ link)) places

end Placed

/-- A save that has returned in a tree without links has put two files in place, one after the
other: the copy and the file anew. -/
theorem save_placed (closed : w.tree.Closed) (free : w.tree.LinkFree)
    (saves : (save path text suffix encoding).run w = .ok backup v) :
    pathFor path suffix = .ok backup ∧ ∃ copied copyAt target place data bytes mode,
      w.find path.text = .ok ⟨target, some (.file data mode)⟩ ∧
      Placed w copied backup.text copyAt data mode ∧
      Placed copied v path.text place bytes mode := by
  have ends := save_ends path text suffix encoding w
  rw [saves] at ends
  cases ends with
  | @done _ asked copied logged _ named _ unmoved copies still writes =>
    obtain ⟨⟨copyAt, data, mode, ⟨target, -, leads⟩, placed⟩, -⟩ :=
      (copyAside_ensures closed unmoved path backup).of_ok copies
    have copyFound : copied.find backup.text false =
        .ok ⟨copyAt, some (.file data mode)⟩ := by
      rw [find_of_lastPlace (placed.lastPlace_linkFree free placed.places), placed.tree,
        Function.update_self]
    obtain ⟨⟨place, bytes, -, -, placedAnew⟩, -⟩ :=
      (writeAnew_ensures (placed.around closed) still path text encoding
        (find_of_unfollowed copyFound (by simp))).of_ok writes
    exact ⟨named, copied, copyAt, target, place, data, bytes, mode, leads, placed, placedAnew⟩

/-- A save of a file below a root that has returned: where the copy is, and what else can be told of
the tree. -/
theorem save_leads (sound : w.tree.Sound) (free : w.tree.LinkFree) (clean : root.Clean)
    (valid : ∀ part ∈ names ++ [name], IsEntryName part)
    (saves : (save (root.below (names ++ [name])) text suffix encoding).run w = .ok backup v) :
    pathFor (root.below (names ++ [name])) suffix = .ok backup ∧
      leadsToFile v backup.text = true ∧ IsEntryName (name ++ Encoding.nameBytes suffix) ∧
      v.tree.Sound ∧ v.tree.LinkFree := by
  obtain ⟨named, copied, copyAt, target, place, data, bytes, mode, leads, placed, placedAnew⟩ :=
    save_placed sound.closed free saves
  have here := find_below free clean valid leads
  injection here with here
  rw [here, ← List.append_assoc] at leads
  have file : Names w (root.below (names ++ [name])) (w.placeOf root ++ names) name data mode :=
    ⟨clean.below valid, name_below root names name, leads⟩
  have freeCopied := placed.linkFree free
  have distinct : v.tree.Distinct :=
    ((within_save _ _ text suffix encoding).distinct sound.distinct).of_ok saves
  have copyFound : ∃ bytes mode, v.find backup.text false =
      .ok ⟨copyAt, some (.file bytes mode)⟩ := by
    rw [find_of_lastPlace (placedAnew.lastPlace_linkFree freeCopied
      (placed.lastPlace_linkFree free placed.places)), placedAnew.tree]
    -- Without a suffix the copy would be the file itself.
    by_cases same : copyAt = place
    · exact ⟨bytes, mode, by rw [same, Function.update_self]⟩
    · exact ⟨data, mode, by rw [Function.update_of_ne same, placed.tree, Function.update_self]⟩
  obtain ⟨content, bits, copyFound⟩ := copyFound
  refine ⟨named, leadsToFile_iff.mpr ⟨placed.written, copyAt, content, bits, ?_⟩,
    file.isEntryName_copy sound.closed free named placed.written
      (stands_of_lastPlace placed.places), ?_, placedAnew.linkFree freeCopied⟩
  · exact find_of_unfollowed copyFound (by simp)
  · exact ⟨placedAnew.around (placed.around sound.closed), distinct,
      placedAnew.names_valid (placed.names_valid sound.names)⟩

/-- A copy that a save has made is among the pairs of a walk exactly if its name is recognized. -/
theorem mem_pairs_iff (sound : w.tree.Sound) (free : w.tree.LinkFree) (clean : root.Clean)
    (valid : ∀ part ∈ names ++ [name], IsEntryName part) (oneLine : 0x0A ∉ name)
    (saves : (save (root.below (names ++ [name])) text suffix encoding).run w = .ok backup v)
    (resumes : Resumes v u) {files : List Path}
    (walked : Walker.Walked u root (('*' : CodePoint) :: suffix) files) :
    ⟨backup, root.below (names ++ [name])⟩ ∈ files.filterMap (pairOf? suffix) ↔
      Recognized suffix name := by
  obtain ⟨named, leads, validCopy, -⟩ := save_leads sound free clean valid saves
  rw [List.mem_filterMap]
  constructor
  · intro listed
    obtain ⟨path, member, made⟩ := listed
    obtain ⟨rfl, -⟩ := pairOf?_eq_some.mp made
    obtain ⟨names', full, same, -, fits, -⟩ := (walked.mem_iff path).mp member
    obtain ⟨-, called⟩ := (backup_eq_below_iff named).mp same
    have bytes : full = name ++ Encoding.nameBytes suffix := by
      rw [← Encoding.nameBytes_decode full, called, Encoding.nameBytes_append,
        Encoding.nameBytes_decode]
    exact ⟨by rwa [called] at fits, by rw [← bytes, called]⟩
  · intro recognized
    have same := (backup_eq_below_iff named).mpr ⟨rfl, recognized.called⟩
    have leadsNow : leadsToFile u backup.text = true := by
      rwa [leadsToFile, resumes.find_eq]
    refine ⟨backup, (walked.mem_iff backup).mpr
      ⟨names, name ++ Encoding.nameBytes suffix, same, ?_, ?_, leadsNow⟩, ?_⟩
    · intro part member
      rcases List.mem_append.mp member with before | last
      · exact valid part (List.mem_append_left _ before)
      · rw [List.mem_singleton.mp last]
        exact validCopy
    · rw [recognized.called]
      exact recognized.fits
    · rw [pairOf?_eq_some, same]
      exact ⟨rfl, livePath?_of_decode root names (valid name (by simp)).isPart oneLine validCopy
        recognized.called⟩

/-- A copy that a save has made is among the pairs of a search with the same suffix exactly if its
name is recognized, and it is for every suffix of characters without an opening bracket. The search
ends, unless the walk is stopped or some file leaves a single dot without the suffix. -/
theorem save_found (sound : w.tree.Sound) (free : w.tree.LinkFree) (clean : root.Clean)
    (valid : ∀ part ∈ names ++ [name], IsEntryName part) (oneLine : 0x0A ∉ name)
    (saves : (save (root.below (names ++ [name])) text suffix encoding).run w = .ok backup v)
    (resumes : Resumes v u) (followLinks : Bool) :
    (findAll root (.native followLinks) suffix).Ensures u
      (fun pairs _ =>
        (⟨backup, root.below (names ++ [name])⟩ ∈ pairs ↔ Recognized suffix name) ∧
        (('[' : CodePoint) ∉ suffix → (∀ c ∈ suffix, c.isSurrogate = false) →
          ⟨backup, root.below (names ++ [name])⟩ ∈ pairs))
      (fun _ _ => ¬Walker.Smooth u root (('*' : CodePoint) :: suffix) ∨
        Stumbles u root suffix) := by
  obtain ⟨-, -, -, soundAfter, freeAfter⟩ := save_leads sound free clean valid saves
  rw [← resumes.tree] at soundAfter freeAfter
  refine (findAll_ensures soundAfter freeAfter clean followLinks suffix).mono ?_
    fun _ _ stopped => stopped.2
  intro pairs _ outcome
  obtain ⟨-, files, walked, rfl, -⟩ := outcome
  have found := mem_pairs_iff sound free clean valid oneLine saves resumes walked
  exact ⟨found, fun plain scalar => found.mpr (recognized_of_plain plain scalar name)⟩

/-- What becomes of `lone` when its file gets another content and the old one is kept under a
suffix. -/
def loneSaved (suffix : Text) : World where
  tree := ⟨[([[97]], .file [109] 0o640),
    ([[97] ++ Encoding.nameBytes suffix], .file [110, 115, 95, 99, 112] 0o640)]⟩

/-- Whether a save of `/a` leaves the tree of `loneSaved`. -/
def savesLone (suffix : Text) (w : World) : Bool :=
  match (save (Path.ofText "/a") "m" suffix "utf-8").run w with
  | .ok backup v => v.tree.entries == (loneSaved suffix).tree.entries && leadsToFile v backup.text
  | .error _ _ => false

theorem resumes_loneSaved (closed : w.tree.Closed) (free : w.tree.LinkFree)
    (directory : w.directory = []) (limits : w.limits = {}) (saves : savesLone suffix w = true) :
    ∃ backup v, (save (Path.ofText "/a") "m" suffix "utf-8").run w = .ok backup v ∧
      leadsToFile v backup.text = true ∧ Resumes v (loneSaved suffix) := by
  unfold savesLone at saves
  cases ends : (save (Path.ofText "/a") "m" suffix "utf-8").run w with
  | error failure v => simp [ends] at saves
  | ok backup v =>
    rw [ends, Bool.and_eq_true, beq_iff_eq] at saves
    obtain ⟨-, _, _, _, _, _, _, _, -, placed, placedAnew⟩ := save_placed closed free ends
    have setting := placedAnew.setting.trans placed.setting
    refine ⟨backup, v, rfl, saves.2, ?_, ?_, ?_⟩
    · exact congrArg Tree.mk saves.1.symm
    · exact (directory_of_setting setting ▸ directory).symm
    · exact (limits_of_setting setting ▸ limits).symm

/-- A search in `loneSaved` ends if its paths can be followed and its names do not stop it. -/
theorem searches_loneSaved (sound : (loneSaved suffix).tree.Sound)
    (free : (loneSaved suffix).tree.LinkFree)
    (finds : ∀ p ∈ (loneSaved suffix).tree.entries,
      ((loneSaved suffix).find ((Path.ofText "/").below p.1).text).isOk = true)
    (named : ∀ p ∈ (loneSaved suffix).tree.entries,
      liveName? (Utf8.decode (p.1.getLast?.getD [])) suffix ≠ some ("." : Text)) :
    ∃ pairs u, (findAll (Path.ofText "/") (.native true) suffix).run (loneSaved suffix) =
      .ok pairs u := by
  have clean := Path.clean_ofText "/"
  have top : (loneSaved suffix).placeOf (Path.ofText "/") = [] := rfl
  have files : ∀ p ∈ (loneSaved suffix).tree.entries, p.2 ≠ .directory := by
    intro p member
    rcases List.mem_pair.mp member with rfl | rfl <;> simp
  have smooth := Walker.smooth_of_files rfl (by decide) rfl top files finds
    (('*' : CodePoint) :: suffix)
  have steady : ¬Stumbles (loneSaved suffix) (Path.ofText "/") suffix := by
    intro stumbles
    obtain ⟨names, full, valid, leads, stem⟩ := stumbles
    obtain ⟨-, place, data, mode, leads⟩ := leadsToFile_iff.mp leads
    have here := find_below free clean valid leads
    injection here with _ entry
    rw [top, List.nil_append] at entry
    exact named _ (mem_entries_of_get? (by simp) entry.symm) (by simpa using stem)
  have ends := findAll_ensures sound free clean true suffix
  cases searches : (findAll (Path.ofText "/") (.native true) suffix).run (loneSaved suffix) with
  | ok pairs u => exact ⟨pairs, u, rfl⟩
  | error failure u =>
    rcases (ends.of_error searches).2 with rough | stumbles
    · exact absurd smooth rough
    · exact absurd stumbles steady

theorem below_lone : Path.ofText "/a" = (Path.ofText "/").below ([] ++ [[97]]) ∧
    ∀ part ∈ [] ++ [[97]], IsEntryName part := by
  refine ⟨by decide, fun part member => ?_⟩
  obtain rfl := List.mem_singleton.mp member
  exact ⟨by decide, by decide, by decide, by decide, by decide⟩

/-- A save of `/a` and a search with the same suffix afterwards, where both return. -/
theorem saved_and_searched (sound : w.tree.Sound) (free : w.tree.LinkFree)
    (directory : w.directory = []) (limits : w.limits = {}) (saves : savesLone suffix w = true)
    (finds : ∀ p ∈ (loneSaved suffix).tree.entries,
      ((loneSaved suffix).find ((Path.ofText "/").below p.1).text).isOk = true)
    (named : ∀ p ∈ (loneSaved suffix).tree.entries,
      liveName? (Utf8.decode (p.1.getLast?.getD [])) suffix ≠ some ("." : Text)) :
    ∃ backup v pairs u, (save (Path.ofText "/a") "m" suffix "utf-8").run w = .ok backup v ∧
      leadsToFile v backup.text = true ∧ Resumes v (loneSaved suffix) ∧
      (findAll (Path.ofText "/") (.native true) suffix).run (loneSaved suffix) = .ok pairs u ∧
      (loneSaved suffix).tree.Sound ∧ (loneSaved suffix).tree.LinkFree := by
  obtain ⟨backup, v, saved, leads, resumes⟩ :=
    resumes_loneSaved sound.closed free directory limits saves
  have soundAfter : (loneSaved suffix).tree.Sound ∧ (loneSaved suffix).tree.LinkFree := by
    obtain ⟨below, valid⟩ := below_lone
    rw [below] at saved
    rw [resumes.tree]
    exact (save_leads sound free (Path.clean_ofText "/") valid saved).2.2.2
  obtain ⟨pairs, u, searches⟩ := searches_loneSaved soundAfter.1 soundAfter.2 finds named
  exact ⟨backup, v, pairs, u, saved, leads, resumes, searches, soundAfter⟩

/-- Other special characters of patterns do no harm in a suffix. -/
theorem save_found_lone : ∃ backup v pairs u,
    (save (Path.ofText "/a") "m" "*?" "utf-8").run lone = .ok backup v ∧
    Resumes v (loneSaved "*?") ∧
    (findAll (Path.ofText "/") (.native true) "*?").run (loneSaved "*?") = .ok pairs u ∧
    ⟨backup, Path.ofText "/a"⟩ ∈ pairs := by
  obtain ⟨below, valid⟩ := below_lone
  have saves : savesLone "*?" lone = true := by decide +kernel
  obtain ⟨sound, free⟩ := sound_lone
  have setting : lone.directory = [] ∧ lone.limits = {} := ⟨rfl, rfl⟩
  generalize lone = w at saves sound free setting ⊢
  obtain ⟨backup, v, pairs, u, saved, -, resumes, searches, -⟩ := saved_and_searched sound free
    setting.1 setting.2 saves (by decide +kernel) (by decide +kernel)
  refine ⟨backup, v, pairs, u, saved, resumes, searches, ?_⟩
  rw [below] at saved ⊢
  have found := save_found sound free (Path.clean_ofText "/") valid (by decide) saved resumes true
  exact (found.of_ok searches).2 (by decide) (by decide)

/-- With brackets in the suffix a copy can be made that no search with the suffix finds. -/
theorem bracketed_copy_missed : ∃ backup v pairs u,
    (save (Path.ofText "/a") "m" "[x]" "utf-8").run lone = .ok backup v ∧
    leadsToFile v backup.text = true ∧ Resumes v (loneSaved "[x]") ∧
    (findAll (Path.ofText "/") (.native true) "[x]").run (loneSaved "[x]") = .ok pairs u ∧
    ⟨backup, Path.ofText "/a"⟩ ∉ pairs := by
  obtain ⟨below, valid⟩ := below_lone
  have saves : savesLone "[x]" lone = true := by decide +kernel
  obtain ⟨sound, free⟩ := sound_lone
  have setting : lone.directory = [] ∧ lone.limits = {} := ⟨rfl, rfl⟩
  generalize lone = w at saves sound free setting ⊢
  obtain ⟨backup, v, pairs, u, saved, leads, resumes, searches, soundAfter, freeAfter⟩ :=
    saved_and_searched sound free setting.1 setting.2 saves (by decide +kernel) (by decide +kernel)
  refine ⟨backup, v, pairs, u, saved, leads, resumes, searches, ?_⟩
  obtain ⟨-, files, walked, rfl, -⟩ :=
    (findAll_ensures soundAfter freeAfter (Path.clean_ofText "/") true "[x]").of_ok searches
  rw [below] at saved ⊢
  rw [mem_pairs_iff sound free (Path.clean_ofText "/") valid (by decide) saved resumes walked]
  intro recognized
  exact absurd recognized.fits (by decide +kernel)

end Backup

end Renewal
