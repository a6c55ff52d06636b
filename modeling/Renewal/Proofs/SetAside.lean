import Renewal.Proofs.AtomicSave
import Renewal.Proofs.BackupPath
import Renewal.Proofs.Footprint
import Renewal.Proofs.Walk

/-! # Files that a run sets aside

In a tree without links a save changes the file that a path names and makes a copy beside it, where
nothing stood (`Backup.Names.save_ensures`). So a run that does not put saved copies back leaves
each place of the tree as it was, except for files that it has set aside and their copies
(`Backup.Renewed`): the copy holds what the file held before the run. Any suffix will do.
-/

namespace Renewal

open Renewal.Tree World FileSystem Backup

namespace Backup

variable {w u v : World} {path backup : Path} {suffix : Text} {around : Location}
  {name : EntryName} {data : Bytes} {mode : Nat}

/-- The place of the copy of a file with a suffix. -/
def copyPlace (suffix : Text) (around : Location) (name : EntryName) : Location :=
  around ++ [name ++ Encoding.nameBytes suffix]

/-- A path leads to a file and ends with the name of the file. -/
structure Names (w : World) (path : Path) (around : Location) (name : EntryName) (data : Bytes)
    (mode : Nat) : Prop where
  clean : path.Clean
  called : path.name = Utf8.decode name
  leads : w.find path.text = .ok ⟨around ++ [name], some (.file data mode)⟩

/-- A name with a slash that the path of a copy can have ends with a dot. -/
theorem ending_of_separator_mem (part : Path.IsPart path.name)
    (isName : Path.isName (path.name ++ suffix) = true) (cut : Path.separator ∈ suffix) :
    Path.ending (path.name ++ suffix) = ("." : Text) := by
  obtain ⟨front, rest, rfl, first⟩ := List.eq_append_cons_of_mem cut
  have whole : path.name ++ (front ++ Path.separator :: rest) =
      (path.name ++ front) ++ Path.separator :: rest := by
    simp
  have firstPart : Path.IsPart (path.name ++ front) :=
    part.append (by simp [part.uncut, first])
  simp only [Path.isName, Bool.and_eq_true, beq_iff_eq, bne_iff_ne] at isName
  obtain ⟨⟨-, ends⟩, one⟩ := isName
  rw [whole] at ends one ⊢
  rw [Path.namesOf_append, Path.namesOf_of_isPart firstPart, List.length_append,
    List.length_singleton] at one
  have none : Path.namesOf rest = [] := List.length_eq_zero_iff.mp (by omega)
  rw [Path.ending_separator]
  have dropped := List.filter_eq_nil_iff.mp none _ (Path.ending_mem_cutAt rest)
  -- The last piece is written, or a slash would stand at the end; so it is a dot.
  by_contra notDot
  have empty : Path.ending rest = [] := by simpa [notDot] using dropped
  apply ends
  rw [List.getLast?_append_of_ne_nil _ (by simp), List.getLast?_cons]
  cases rest with
  | nil => rfl
  | cons c more => rw [Path.getLast?_of_ending_eq_nil (by simp) empty, Option.getD_some]

theorem placeOf_concat (w : World) (root : PathRoot) (front : List Text) (last : Text) :
    w.placeOf ⟨root, front ++ [last]⟩ =
      stepTo (w.placeOf ⟨root, front⟩) (Encoding.nameBytes last) := by
  rw [placeOf, List.map_append, goTo_append]
  rfl

/-- A path that ends with a proper name ends with one that an entry can have. -/
theorem isEntryName_of_stands {text : Text} {place : Location} (stands : w.Stands text place)
    (written : isPath text = true) : IsEntryName (Encoding.nameBytes (Path.ending text)) := by
  have uncut := Text.not_mem_of_mem_cutAt (Path.ending_mem_cutAt text)
  refine ⟨mt nameBytes_eq_nil_iff.mp stands.named, slash_not_mem_nameBytes uncut, fun null => ?_,
    stands.proper⟩
  obtain ⟨c, inside, among⟩ := List.mem_flatMap.mp null
  obtain ⟨code, -⟩ := Encoding.codeBytes_of_mem (by decide) among
  have nameable := List.all_eq_true.mp written c ((Path.ending_suffix_self text).subset inside)
  simp [Encoding.isNameable, code] at nameable

/-- Replacing a file that was stopped leaves a tree as it was, or one more file in it, a temporary
one that could not be removed. -/
theorem Halted.cases {target : Path} (halted : Halted w v target) (closed : w.tree.Closed) :
    v.tree.get? = w.tree.get? ∨ ∃ around name data mode,
      v.tree.get? = Function.update w.tree.get? (around ++ [name]) (some (.file data mode)) ∧
      w.tree.get? (around ++ [name]) = none ∧ w.tree.get? around = some .directory ∧
      IsEntryName name ∧ Encoding.nameBytes ".tmp" <:+ name ∧ ¬w.Clears := by
  rcases halted.drafting with same | ⟨n, k, place, data, mode, written, missing, tree⟩
  · exact .inl same
  have absent : w.tree.get? place = none := (entry_of_find missing).symm
  have unclear : ¬w.Clears := by
    intro clears
    have there : v.tree.get? place = some (.file data mode) := by rw [tree, Function.update_self]
    rw [halted.cleared clears, absent] at there
    cases there
  have stands := stands_of_missing closed missing
  have valid := isEntryName_of_stands stands written
  obtain ⟨around, rfl, directory⟩ := stands.around
  refine .inr ⟨around, _, data, mode, tree, absent, directory, valid, ?_, unclear⟩
  obtain ⟨front, whole⟩ : ∃ front, temporaryPath (Location.text w.directory) target
      (w.draws n k) = front ++ (".tmp" : Text) := by
    unfold temporaryPath
    extract_lets around slash
    exact ⟨.concat [around, slash, ".", target.name, ".", w.draws n k], by simp [Text.concat]⟩
  rw [whole, Path.ending_append_uncut _ (by decide), Encoding.nameBytes_append]
  exact List.suffix_append _ _

/-- What was there before is still there. -/
theorem Halted.get?_of_some {target : Path} {l : Location} {e : Entry} (halted : Halted w v target)
    (closed : w.tree.Closed) (present : w.tree.get? l = some e) : v.tree.get? l = some e := by
  rcases halted.cases closed with same | ⟨around, name, data, mode, tree, absent, -⟩
  · rw [same, present]
  · rw [tree, Function.update_of_ne, present]
    rintro rfl
    rw [absent] at present
    cases present

namespace Names

theorem bytes (file : Names w path around name data mode) :
    Encoding.nameBytes path.name = name := by
  rw [file.called, Encoding.nameBytes_decode]

theorem isPart (file : Names w path around name data mode) (written : path.name ≠ []) :
    ∃ front, path.names = front ++ [path.name] ∧ Path.IsPart path.name := by
  have some : path.names ≠ [] := by
    intro none
    exact written (by rw [Path.name, none]; rfl)
  obtain ⟨front, last, names⟩ := (List.eq_nil_or_concat path.names).resolve_left some
  rw [List.concat_eq_append] at names
  obtain rfl : path.name = last := by simp [Path.name, names]
  exact ⟨front, names, file.clean _ (by simp [names])⟩

/-- The file stands in the directory that the names before the last one lead to. -/
theorem placeOf_front (file : Names w path around name data mode) (closed : w.tree.Closed)
    (free : w.tree.LinkFree) {front : List Text} (names : path.names = front ++ [path.name])
    (part : Path.IsPart path.name) : w.placeOf ⟨path.root, front⟩ = around ∧ IsProper name := by
  have stands := find_linkFree free file.leads
  rw [Path.ofText_text file.clean] at stands
  injection stands with place entry
  have whole : path = ⟨path.root, front ++ [path.name]⟩ := by rw [← names]
  have step : around ++ [name] = stepTo (w.placeOf ⟨path.root, front⟩) name := by
    rw [place, whole, placeOf_concat, file.bytes]
  have directory : w.tree.get? (w.placeOf ⟨path.root, front⟩) = some .directory := by
    obtain ⟨-, -, leads⟩ := find_eq_ok_iff.mp file.leads
    obtain ⟨passes, -⟩ := (followLinks_linkFree free).mp leads
    rw [Path.pathNames_text file.clean (by simp [names]), names, List.map_append, passes_append,
      Path.pathStart_nameBytes, show Path.rootOf path.text = path.root from
        congrArg Path.root (Path.ofText_text file.clean)] at passes
    exact passes.2.1
  have proper : IsProper name := by
    constructor
    · intro dot
      exact part.notDot (by rw [file.called, dot]; decide)
    · intro up
      rw [up, show stepTo _ dotDot = List.dropLast _ from rfl] at step
      rw [← place, up, step, closed.dropLast directory] at entry
      cases entry
  rw [stepTo_proper proper] at step
  exact ⟨(List.append_inj' step rfl).1.symm, proper⟩

/-- A copy will stand beside the file. -/
theorem beside (file : Names w path around name data mode) (closed : w.tree.Closed)
    (free : w.tree.LinkFree) (named : pathFor path suffix = .ok backup) {place : Location}
    (stands : w.Stands backup.text place) :
    place = copyPlace suffix around name ∧ Path.separator ∉ suffix ∧
      IsProper (name ++ Encoding.nameBytes suffix) := by
  obtain ⟨written, isName, rfl⟩ := pathFor_eq_ok named
  obtain ⟨front, names, part⟩ := file.isPart written
  have proper := stands.proper
  rw [Path.ending_text (by simp), name_concat] at proper
  have uncut : Path.separator ∉ suffix := by
    intro slash
    rw [ending_of_separator_mem part isName slash] at proper
    exact proper.1 (by decide)
  have whole : Path.separator ∉ path.name ++ suffix := by simp [part.uncut, uncut]
  rw [Path.ending_of_uncut whole, Encoding.nameBytes_append, file.bytes] at proper
  have clean : Path.Clean ⟨path.root, path.names.dropLast ++ [path.name ++ suffix]⟩ := by
    intro other member
    rcases List.mem_append.mp member with before | last
    · exact file.clean other (List.mem_of_mem_dropLast before)
    · rw [List.mem_singleton.mp last]
      exact part.append whole
  obtain ⟨entry, finds⟩ := stands.finds
  have there := find_linkFree free finds
  rw [Path.ofText_text clean] at there
  injection there with place
  rw [names, List.dropLast_concat, placeOf_concat, (file.placeOf_front closed free names part).1,
    Encoding.nameBytes_append, file.bytes, stepTo_proper proper] at place
  exact ⟨place, uncut, proper⟩

/-- The copy will have a name that an entry can have. -/
theorem isEntryName_copy (file : Names w path around name data mode) (closed : w.tree.Closed)
    (free : w.tree.LinkFree) (named : pathFor path suffix = .ok backup)
    (written : isPath backup.text = true) {place : Location}
    (stands : w.Stands backup.text place) :
    IsEntryName (name ++ Encoding.nameBytes suffix) := by
  obtain ⟨-, uncut, -⟩ := file.beside closed free named stands
  have ends := isEntryName_of_stands stands written
  obtain ⟨nonempty, -, rfl⟩ := pathFor_eq_ok named
  obtain ⟨-, -, part⟩ := file.isPart nonempty
  have whole : Path.separator ∉ path.name ++ suffix := by simp [part.uncut, uncut]
  rwa [Path.ending_text (by simp), name_concat, Path.ending_of_uncut whole,
    Encoding.nameBytes_append, file.bytes] at ends

end Names

/-- A file has got a copy where nothing stood, and a new content or the old one; nothing else has
changed. -/
structure Aside (suffix : Text) (w v : World) (path : Path) (around : Location) (name : EntryName)
    (data new : Bytes) (mode : Nat) : Prop where
  backup : ∃ backup, pathFor path suffix = .ok backup ∧
    isPath backup.text = true ∧
    w.find backup.text false = .ok ⟨copyPlace suffix around name, none⟩
  tree : v.tree.get? = Function.update
    (Function.update w.tree.get? (copyPlace suffix around name) (some (.file data mode)))
    (around ++ [name]) (some (.file new mode))

namespace Names

theorem save_ensures (file : Names w path around name data mode) (closed : w.tree.Closed)
    (free : w.tree.LinkFree) (sees : w.Sees) (text suffix encoding : Text) :
    (save path text suffix encoding).Ensures w
      (fun _ v => v.setting = w.setting ∧ ∃ new, Aside suffix w v path around name data new mode ∧
        w.Writes encoding text new)
      (fun _ v => ∃ u target, Halted u v target ∧ u.setting = w.setting ∧
        (u.tree.get? = w.tree.get? ∨ ∃ new, Aside suffix w u path around name data new mode)) := by
  have present : w.tree.get? (around ++ [name]) = some (.file data mode) :=
    (entry_of_find file.leads).symm
  refine (Backup.save_ensures closed sees path text suffix encoding).mono ?_ ?_
  · intro backup v outcome
    obtain ⟨named, copyAt, place, content, bytes, bits, saved⟩ := outcome
    obtain ⟨target, leads⟩ := saved.leads
    cases file.leads.symm.trans leads
    obtain ⟨e, here⟩ := saved.present
    have same := (find_linkFree free here).trans (find_linkFree free file.leads).symm
    obtain ⟨rfl, -⟩ := Found.mk.inj same
    obtain ⟨rfl, -⟩ := file.beside closed free named (stands_of_missing closed saved.free)
    exact ⟨saved.setting, bytes, ⟨⟨backup, named, saved.written, saved.free⟩, saved.tree⟩,
      saved.writes⟩
  · intro failure v outcome
    cases outcome with
    | early halted => exact ⟨w, _, halted, rfl, .inl rfl⟩
    | @late backup copied copyAt target content bits named leads written added halted =>
      cases file.leads.symm.trans leads
      obtain ⟨rfl, -⟩ := file.beside closed free named (stands_of_missing closed added.free)
      refine ⟨copied, path, halted, added.setting, .inr ⟨data, ⟨backup, named, written,
        added.free⟩, ?_⟩⟩
      have apart : around ++ [name] ≠ copyPlace suffix around name := by
        intro same
        rw [same, added.absent] at present
        cases present
      rw [← added.tree, ← present, ← added.entry_of_ne apart, Function.update_eq_self]

end Names

/-- A file that one of some paths names has a copy now that it did not have before: the copy holds
what the file held then. -/
structure SetAside (suffix : Text) (files : List Path) (w v : World) (around : Location)
    (name : EntryName) (data : Bytes) (mode : Nat) : Prop where
  path : ∃ path ∈ files, ¬path.name.endsWith suffix ∧ Names w path around name data mode ∧
    ∃ backup, pathFor path suffix = .ok backup ∧ isPath backup.text = true ∧
      w.find backup.text false = .ok ⟨copyPlace suffix around name, none⟩
  copy : v.tree.get? (copyPlace suffix around name) = some (.file data mode)
  live : ∃ new, v.tree.get? (around ++ [name]) = some (.file new mode)

namespace SetAside

variable {files : List Path}

theorem before (aside : SetAside suffix files w v around name data mode) :
    w.tree.get? (around ++ [name]) = some (.file data mode) := by
  obtain ⟨path, -, -, file, -⟩ := aside.path
  exact (entry_of_find file.leads).symm

theorem free (aside : SetAside suffix files w v around name data mode) :
    w.tree.get? (copyPlace suffix around name) = none := by
  obtain ⟨path, -, -, -, backup, -, -, missing⟩ := aside.path
  exact (entry_of_find missing).symm

/-- The copy has a name that an entry can have. -/
theorem isEntryName (aside : SetAside suffix files w v around name data mode)
    (closed : w.tree.Closed) (free : w.tree.LinkFree) :
    IsEntryName (name ++ Encoding.nameBytes suffix) := by
  obtain ⟨path, -, -, file, backup, named, written, missing⟩ := aside.path
  exact file.isEntryName_copy closed free named written (stands_of_missing closed missing)

theorem of_get? (aside : SetAside suffix files w v around name data mode)
    (copy : u.tree.get? (copyPlace suffix around name) = v.tree.get? (copyPlace suffix around name))
    (live : u.tree.get? (around ++ [name]) = v.tree.get? (around ++ [name])) :
    SetAside suffix files w u around name data mode :=
  ⟨aside.path, by rw [copy, aside.copy], by rw [live]; exact aside.live⟩

end SetAside

/-- What runs can do to the files that paths name, as long as they do not put saved copies back:
each place is as it was, or a file that has been set aside, or its copy. -/
structure Renewed (suffix : Text) (files : List Path) (w v : World) : Prop where
  setting : v.setting = w.setting
  place : ∀ l, v.tree.get? l = w.tree.get? l ∨ ∃ around name data mode,
    SetAside suffix files w v around name data mode ∧
      (l = around ++ [name] ∨ l = copyPlace suffix around name)

namespace Renewed

variable {files : List Path}

theorem refl (suffix : Text) (files : List Path) (w : World) : Renewed suffix files w w :=
  ⟨rfl, fun _ => .inl rfl⟩

theorem of_get? (renewed : Renewed suffix files w v) (tree : u.tree.get? = v.tree.get?)
    (setting : u.setting = v.setting) : Renewed suffix files w u := by
  refine ⟨setting.trans renewed.setting, fun l => ?_⟩
  rw [tree]
  refine (renewed.place l).imp_right fun aside => ?_
  obtain ⟨around, name, data, mode, aside, here⟩ := aside
  exact ⟨around, name, data, mode, aside.of_get? (by rw [tree]) (by rw [tree]), here⟩

theorem of_unmoved (renewed : Renewed suffix files w v) (unmoved : v.Unmoved u) :
    Renewed suffix files w u :=
  renewed.of_get? (by rw [unmoved.tree]) unmoved.setting

/-- A place that was free holds a copy now, or nothing. -/
theorem of_free (renewed : Renewed suffix files w v) {l : Location} (free : w.tree.get? l = none) :
    v.tree.get? l = none ∨ ∃ around name data mode,
      SetAside suffix files w v around name data mode ∧ l = copyPlace suffix around name := by
  rcases renewed.place l with same | ⟨around, name, data, mode, aside, rfl | here⟩
  · exact .inl (same.trans free)
  · rw [aside.before] at free
    cases free
  · exact .inr ⟨around, name, data, mode, aside, here⟩

/-- A place that was taken is as it was, or holds a file that has been set aside. -/
theorem of_taken (renewed : Renewed suffix files w v) {l : Location} {e : Entry}
    (taken : w.tree.get? l = some e) :
    v.tree.get? l = some e ∨ ∃ around name data mode,
      SetAside suffix files w v around name data mode ∧ l = around ++ [name] := by
  rcases renewed.place l with same | ⟨around, name, data, mode, aside, here | rfl⟩
  · exact .inl (same.trans taken)
  · exact .inr ⟨around, name, data, mode, aside, here⟩
  · rw [aside.free] at taken
    cases taken

/-- Nothing has come or gone that a path can go through. -/
theorem passages (renewed : Renewed suffix files w v) : SamePassages w.tree v.tree := by
  apply SamePassages.of_plain
  intro l
  refine (renewed.place l).imp_right fun changed => ?_
  obtain ⟨around, name, data, mode, aside, rfl | rfl⟩ := changed
  · obtain ⟨new, live⟩ := aside.live
    rw [live, aside.before]
    exact ⟨.file new mode, .file data mode⟩
  · rw [aside.copy, aside.free]
    exact ⟨.file data mode, .none⟩

theorem linkFree (renewed : Renewed suffix files w v) (free : w.tree.LinkFree) :
    v.tree.LinkFree :=
  fun l target link => free l target ((renewed.passages.link l target).mp link)

/-- Every entry stands in a directory that was there before. -/
theorem closed (renewed : Renewed suffix files w v) (closed : w.tree.Closed) : v.tree.Closed := by
  intro around name present
  rw [renewed.passages.directory]
  cases before : w.tree.get? (around ++ [name]) with
  | some e => exact closed around name (by rw [before]; rfl)
  | none =>
    rcases renewed.of_free before with none | ⟨beside, live, data, mode, aside, here⟩
    · rw [none] at present
      cases present
    · obtain ⟨rfl, -⟩ := List.append_inj' here rfl
      exact closed around live (by rw [aside.before]; rfl)

/-- Every name is one that an entry can have. -/
theorem names (renewed : Renewed suffix files w v) (sound : w.tree.Sound) (free : w.tree.LinkFree)
    {l : Location} (present : (v.tree.get? l).isSome) : ∀ name ∈ l, IsEntryName name := by
  cases before : w.tree.get? l with
  | some e => exact sound.names l (by rw [before]; rfl)
  | none =>
    rcases renewed.of_free before with none | ⟨around, name, data, mode, aside, rfl⟩
    · rw [none] at present
      cases present
    · have valid := sound.names (around ++ [name]) (by rw [aside.before]; rfl)
      intro part member
      rcases List.mem_append.mp member with inside | last
      · exact valid part (List.mem_append_left _ inside)
      · rw [List.mem_singleton.mp last]
        exact aside.isEntryName sound.closed free

/-- One more file has been set aside. -/
theorem insert (renewed : Renewed suffix files w u) (listed : path ∈ files)
    (plain : ¬path.name.endsWith suffix) (file : Names w path around name data mode) {new : Bytes}
    (aside : Aside suffix u v path around name data new mode) (setting : v.setting = u.setting) :
    Renewed suffix files w v := by
  have present : w.tree.get? (around ++ [name]) = some (.file data mode) :=
    (entry_of_find file.leads).symm
  obtain ⟨backup, named, written, missing⟩ := aside.backup
  have freeNow : u.tree.get? (copyPlace suffix around name) = none := (entry_of_find missing).symm
  have freeBefore : w.tree.get? (copyPlace suffix around name) = none := by
    cases before : w.tree.get? (copyPlace suffix around name) with
    | none => rfl
    | some e =>
      rcases renewed.of_taken before with same | ⟨around', name', _, _, other, here⟩
      · rw [same] at freeNow
        cases freeNow
      · obtain ⟨content, live⟩ := other.live
        rw [here, live] at freeNow
        cases freeNow
  have missingBefore := find_transfer renewed.setting.symm renewed.passages.symm missing
  rw [freeBefore] at missingBefore
  have apart : copyPlace suffix around name ≠ around ++ [name] := by
    intro same
    rw [← same, freeBefore] at present
    cases present
  have here : SetAside suffix files w v around name data mode := by
    refine ⟨⟨path, listed, plain, file, backup, named, written, missingBefore⟩, ?_, new, ?_⟩
    · rw [aside.tree, Function.update_of_ne apart, Function.update_self]
    · rw [aside.tree, Function.update_self]
  have kept : ∀ {l e}, u.tree.get? l = some e → l ≠ around ++ [name] →
      v.tree.get? l = u.tree.get? l := by
    intro l e stands elsewhere
    have notCopy : l ≠ copyPlace suffix around name := by
      intro same
      rw [same, freeNow] at stands
      cases stands
    rw [aside.tree, Function.update_of_ne elsewhere, Function.update_of_ne notCopy]
  refine ⟨setting.trans renewed.setting, fun l => ?_⟩
  by_cases live : l = around ++ [name]
  · exact .inr ⟨around, name, data, mode, here, .inl live⟩
  by_cases copy : l = copyPlace suffix around name
  · exact .inr ⟨around, name, data, mode, here, .inr copy⟩
  rw [aside.tree, Function.update_of_ne live, Function.update_of_ne copy]
  refine (renewed.place l).imp_right fun changed => ?_
  obtain ⟨around', name', data', mode', other, there⟩ := changed
  refine ⟨around', name', data', mode', other.of_get? ?_ ?_, there⟩
  · apply kept other.copy
    intro same
    rw [← same, other.free] at present
    cases present
  · obtain ⟨content, stands⟩ := other.live
    apply kept stands
    intro same
    obtain ⟨rfl, sameName⟩ := List.append_inj' same rfl
    obtain rfl := List.singleton_inj.mp sameName
    rw [other.copy] at freeNow
    cases freeNow

/-- Saving one of the files leaves the tree renewed, however it ends, but for a temporary file. -/
theorem save_ensures (renewed : Renewed suffix files w u) (listed : path ∈ files)
    (plain : ¬path.name.endsWith suffix) (file : Names w path around name data mode)
    (closed : w.tree.Closed) (free : w.tree.LinkFree) (sees : w.Sees) (text encoding : Text) :
    (save path text suffix encoding).Ensures u (fun _ v => Renewed suffix files w v)
      (fun _ v => ∃ between target, Renewed suffix files w between ∧ Halted between v target) := by
  have present : w.tree.get? (around ++ [name]) = some (.file data mode) :=
    (entry_of_find file.leads).symm
  have leads := find_transfer renewed.setting renewed.passages file.leads
  -- The file is as it was, or it has been set aside already and cannot be once more.
  have now : ∃ content, u.tree.get? (around ++ [name]) = some (.file content mode) ∧
      (u.tree.get? (copyPlace suffix around name) = none → content = data) := by
    rcases renewed.of_taken present with same | ⟨around', name', data', mode', other, here⟩
    · exact ⟨data, same, fun _ => rfl⟩
    · obtain ⟨rfl, sameName⟩ := List.append_inj' here rfl
      obtain rfl := List.singleton_inj.mp sameName
      obtain ⟨content, live⟩ := other.live
      cases present.symm.trans other.before
      refine ⟨content, live, fun missing => ?_⟩
      rw [other.copy] at missing
      cases missing
  obtain ⟨content, stands, unchanged⟩ := now
  rw [stands] at leads
  have fileNow : Names u path around name content mode := ⟨file.clean, file.called, leads⟩
  have onward : ∀ v, v.setting = u.setting →
      (∃ new, Aside suffix u v path around name content new mode) → Renewed suffix files w v := by
    intro v setting saved
    obtain ⟨new, aside⟩ := saved
    obtain ⟨backup, named, written, missing⟩ := aside.backup
    obtain rfl := unchanged (entry_of_find missing).symm
    exact renewed.insert listed plain file aside setting
  refine (fileNow.save_ensures (renewed.closed closed) (renewed.linkFree free)
    ((sees_of_setting renewed.setting).mpr sees) text suffix encoding).mono ?_ ?_
  · intro _ v outcome
    obtain ⟨setting, new, aside, -⟩ := outcome
    exact onward v setting ⟨new, aside⟩
  · intro _ v outcome
    obtain ⟨between, target, halted, setting, tree | saved⟩ := outcome
    · exact ⟨between, target, renewed.of_get? tree setting, halted⟩
    · exact ⟨between, target, onward between setting saved, halted⟩

end Renewed

end Backup

namespace Walker

/-- A walker that gives only paths that name files. -/
def AnswersFiles (walker : Walker) (w : World) (root : Path) (pattern : Text) : Prop :=
  ∀ files v, (walker.walk root pattern).run w = .ok files v →
    ∀ path ∈ files, ∃ around name data mode, Backup.Names w path around name data mode

/-- Listing directories gives only paths that name files. -/
theorem answersFiles_native {w : World} (sound : w.tree.Sound) (free : w.tree.LinkFree)
    {root : Path} (clean : root.Clean) (followLinks : Bool) (pattern : Text) :
    AnswersFiles (.native followLinks) w root pattern := by
  intro files v ends path member
  obtain ⟨-, walked⟩ := (walkNative_ensures sound free clean followLinks pattern).of_ok ends
  obtain ⟨names, name, rfl, valid, -, leads⟩ := (walked.mem_iff path).mp member
  obtain ⟨-, place, data, mode, finds⟩ := leadsToFile_iff.mp leads
  have here := find_below free clean valid finds
  injection here with here
  refine ⟨w.placeOf root ++ names, name, data, mode, clean.below valid,
    name_below root names name, ?_⟩
  rw [finds, here, List.append_assoc]

end Walker

section Runs

variable {tools : Tools} {options : RunOptions} {w : World}

/-- A run that does not put saved copies back leaves a tree renewed, however it ends, but for a
temporary file. -/
theorem run_renews (keeps : options.reset = false) (closed : w.tree.Closed)
    (free : w.tree.LinkFree) (sees : w.Sees)
    (answers : tools.walker.AnswersFiles w (Path.ofText options.path) options.name) :
    (run tools options).Ensures w (fun _ v => ∃ files, Renewed options.suffix files w v)
      (fun _ v => ∃ files between target,
        Renewed options.suffix files w between ∧ Halted between v target) := by
  have unmoved : ∀ v, w.Unmoved v → ∃ files, Renewed options.suffix files w v :=
    fun v unmoved => ⟨[], (Renewed.refl _ _ w).of_unmoved unmoved⟩
  have stop : ∀ v, (∃ files, Renewed options.suffix files w v) → ∃ files between target,
      Renewed options.suffix files w between ∧ Halted between v target :=
    fun v ⟨files, renewed⟩ => ⟨files, v, Path.ofText [], renewed, .of_unmoved (.refl v) _⟩
  unfold run Run.restoreFirst
  rw [keeps, if_neg (by simp), Action.ensures_bind, Action.ensures_pure, Action.ensures_ite]
  refine ⟨fun _ => ?_, fun _ => ?_⟩
  · rw [Action.ensures_bind]
    exact (Backup.quiet_diff _ _ _ _ _ w).mono (fun _ => unmoved) fun _ v later =>
      stop v (unmoved v later)
  · unfold Run.scan
    rw [Action.ensures_bind]
    refine (Walker.within_walk Unmoved tools.walker _ _ w).with_run.mono ?_ fun _ v raised =>
      stop v (unmoved v raised.2)
    intro files v walked
    obtain ⟨ends, later⟩ := walked
    rw [Action.ensures_bind]
    refine (Run.processFiles_keeps (Renewed options.suffix files w)
      (fun v => ∃ between target, Renewed options.suffix files w between ∧ Halted between v target)
      (fun _ _ renewed => renewed.of_unmoved) ?_ ?_ _ ((Renewed.refl _ _ w).of_unmoved later)).mono
      ?_ fun _ v left => ⟨files, left⟩
    · exact fun v renewed => ⟨v, Path.ofText [], renewed, .of_unmoved (.refl v) _⟩
    · intro path member plain u updated renewed _
      obtain ⟨around, name, data, mode, file⟩ := answers files v ends path member
      exact renewed.save_ensures member plain file closed free sees updated.text options.encoding
    · intro summary u renewed
      exact (Run.quiet_conclude tools options summary u).mono
        (fun _ v later => ⟨files, renewed.of_unmoved later⟩)
        fun _ v later => stop v ⟨files, renewed.of_unmoved later⟩

end Runs

end Renewal
