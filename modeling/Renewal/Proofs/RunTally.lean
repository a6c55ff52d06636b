import Mathlib.Algebra.GroupWithZero.Nat
import Renewal.Proofs.EmittedLines
import Renewal.Proofs.KeptCopies

/-! # What the summary of a run counts

A run that updates files visits them one after the other. Each file it can read is a `Visit`; where
the rules change something, the visit leaves a copy in a place that was free, and the update in
place of the file. Files are apart from each other and from all copies, so that each is read as it
was before the run (`Tally.stands`), and the summary of a run counts exactly what has become of the
tree (`run_tally`).
-/

namespace Renewal

open Renewal.Tree World FileSystem Backup

/-- A file that has been read, and what rules make of its text. -/
structure Visit where
  path : Path
  around : Location
  name : EntryName
  data : Bytes
  mode : Nat
  update : Updated

namespace Visit

/-- The place of the file. -/
def live (f : Visit) : Location :=
  f.around ++ [f.name]

/-- The place of the copy of the file with a suffix. -/
def copy (suffix : Text) (f : Visit) : Location :=
  copyPlace suffix f.around f.name

/-- How often rules apply to the file. -/
def changes (f : Visit) : Nat :=
  f.update.changes

/-- Whether rules apply to the file at all. -/
def changed (f : Visit) : Bool :=
  f.changes != 0

/-- The path leads to the file, which holds the bytes of a text that rules update. -/
structure Reads (tools : Tools) (encoding : Text) (w : World) (f : Visit) : Prop where
  leads : w.find f.path.text = .ok ⟨f.live, some (.file f.data f.mode)⟩
  updates : ∃ codec t, w.codec? encoding = some codec ∧ codec.decode f.data = .ok t ∧
    Renewal.update tools.rules.rules t tools.engine = .ok f.update

/-- A copy of the file has come to stand in a free place, and the file holds the encoded update, but
for what would close it. -/
structure Saves (encoding suffix : Text) (w v : World) (f : Visit) : Prop where
  free : w.tree.get? (f.copy suffix) = none
  copy : v.tree.get? (f.copy suffix) = some (.file f.data f.mode)
  live : ∃ codec encoded, w.codec? encoding = some codec ∧
    codec.encode f.update.text = .ok encoded ∧
    v.tree.get? f.live = some (.file encoded.body f.mode)

theorem Reads.stands {tools : Tools} {encoding : Text} {w : World} {f : Visit}
    (reads : f.Reads tools encoding w) : w.tree.get? f.live = some (.file f.data f.mode) :=
  (entry_of_find reads.leads).symm

/-- Copies stand in one place only if their files do. -/
theorem live_of_copy {suffix : Text} {f g : Visit} (same : f.copy suffix = g.copy suffix) :
    f.live = g.live := by
  obtain ⟨around, name⟩ := List.append_inj' same rfl
  rw [live, live, around, List.append_cancel_right (List.singleton_inj.mp name)]

end Visit

/-- What has become of a tree when some of its files have been visited. -/
structure Tally (tools : Tools) (options : RunOptions) (files : List Path) (w v : World)
    (visits : List Visit) : Prop where
  renewed : Renewed options.suffix files w v
  apart : (visits.map Visit.live).Nodup
  reads : ∀ f ∈ visits, f.Reads tools options.encoding w
  saves : ∀ f ∈ visits, f.changed → f.Saves options.encoding options.suffix w v
  rest : ∀ l, (∀ f ∈ visits, f.changed → l ≠ f.live ∧ l ≠ f.copy options.suffix) →
    v.tree.get? l = w.tree.get? l

namespace Tally

variable {tools : Tools} {options : RunOptions} {files : List Path} {w u v : World}
  {visits : List Visit} {f : Visit}

theorem of_unmoved (tally : Tally tools options files w v visits) (unmoved : v.Unmoved u) :
    Tally tools options files w u visits := by
  refine ⟨tally.renewed.of_unmoved unmoved, tally.apart, tally.reads, ?_, ?_⟩
  · intro f member changed
    obtain ⟨free, copy, live⟩ := tally.saves f member changed
    refine ⟨free, ?_, ?_⟩ <;> rwa [unmoved.tree]
  · rw [unmoved.tree]
    exact tally.rest

/-- A file that has not been visited is as it was. -/
theorem stands (tally : Tally tools options files w v visits) {place : Location} {e : Entry}
    (before : w.tree.get? place = some e) (fresh : place ∉ visits.map Visit.live) :
    v.tree.get? place = some e := by
  rw [tally.rest place, before]
  intro g member changed
  refine ⟨?_, ?_⟩
  · rintro rfl
    exact fresh (List.mem_map_of_mem member)
  · rintro rfl
    rw [(tally.saves g member changed).free] at before
    cases before

/-- A path to a file that has not been visited leads there still. -/
theorem names (tally : Tally tools options files w v visits) {path : Path} {around : Location}
    {name : EntryName} {data : Bytes} {mode : Nat} (file : Names w path around name data mode)
    (fresh : around ++ [name] ∉ visits.map Visit.live) : Names v path around name data mode := by
  have leads := find_transfer tally.renewed.setting tally.renewed.passages file.leads
  rw [tally.stands (entry_of_find file.leads).symm fresh] at leads
  exact ⟨file.clean, file.called, leads⟩

theorem apart_concat (tally : Tally tools options files w v visits)
    (fresh : f.live ∉ visits.map Visit.live) : ((visits ++ [f]).map Visit.live).Nodup := by
  rw [List.map_append, List.map_singleton, ← List.concat_eq_append, List.nodup_concat]
  exact ⟨fresh, tally.apart⟩

theorem reads_concat (tally : Tally tools options files w v visits)
    (reads : f.Reads tools options.encoding w) :
    ∀ g ∈ visits ++ [f], g.Reads tools options.encoding w := by
  intro g member
  rcases List.mem_append.mp member with inside | last
  · exact tally.reads g inside
  · rwa [List.mem_singleton.mp last]

/-- One more file has been visited and left as it is. -/
theorem pass (tally : Tally tools options files w v visits)
    (reads : f.Reads tools options.encoding w) (unchanged : f.changed = false)
    (fresh : f.live ∉ visits.map Visit.live) : Tally tools options files w v (visits ++ [f]) := by
  have among : ∀ g ∈ visits ++ [f], g.changed = true → g ∈ visits := by
    intro g member changed
    rcases List.mem_append.mp member with inside | last
    · exact inside
    · rw [List.mem_singleton.mp last, unchanged] at changed
      cases changed
  refine ⟨tally.renewed, tally.apart_concat fresh, tally.reads_concat reads, ?_, ?_⟩
  · exact fun g member changed => tally.saves g (among g member changed) changed
  · exact fun l elsewhere =>
      tally.rest l fun g member => elsewhere g (List.mem_append_left _ member)

/-- One more file has been visited and updated. -/
theorem save (tally : Tally tools options files w u visits)
    (reads : f.Reads tools options.encoding w) (listed : f.path ∈ files)
    (plain : ¬f.path.name.endsWith options.suffix)
    (file : Names w f.path f.around f.name f.data f.mode)
    (fresh : f.live ∉ visits.map Visit.live) (changed : f.changed = true) {bytes : Bytes}
    (writes : w.Writes options.encoding f.update.text bytes) (setting : v.setting = u.setting)
    (aside : Aside options.suffix u v f.path f.around f.name f.data bytes f.mode) :
    Tally tools options files w v (visits ++ [f]) := by
  have renewed := tally.renewed.insert listed plain file aside setting
  obtain ⟨backup, -, -, missing⟩ := aside.backup
  have freeNow : u.tree.get? (f.copy options.suffix) = none := (entry_of_find missing).symm
  have tree : v.tree.get? = Function.update (Function.update u.tree.get?
      (f.copy options.suffix) (some (.file f.data f.mode))) f.live (some (.file bytes f.mode)) :=
    aside.tree
  have notCopy : ∀ g ∈ visits, g.changed = true →
      f.copy options.suffix ≠ g.live ∧ f.copy options.suffix ≠ g.copy options.suffix := by
    intro g member changed
    have saved := tally.saves g member changed
    obtain ⟨_, _, -, -, live⟩ := saved.live
    refine ⟨fun same => ?_, fun same => ?_⟩
    · rw [same, live] at freeNow
      cases freeNow
    · rw [same, saved.copy] at freeNow
      cases freeNow
  have freeBefore : w.tree.get? (f.copy options.suffix) = none := by
    rw [← tally.rest _ notCopy, freeNow]
  have apart : f.copy options.suffix ≠ f.live := by
    intro same
    rw [same, reads.stands] at freeBefore
    cases freeBefore
  refine ⟨renewed, tally.apart_concat fresh, tally.reads_concat reads, ?_, ?_⟩
  · intro g member changed
    rcases List.mem_append.mp member with inside | last
    · obtain ⟨free, copy, live⟩ := tally.saves g inside changed
      have kept : ∀ l, l ≠ f.live → l ≠ f.copy options.suffix →
          v.tree.get? l = u.tree.get? l := fun l notLive notCopy => by
        rw [tree, Function.update_of_ne notLive, Function.update_of_ne notCopy]
      refine ⟨free, ?_, ?_⟩
      · rw [kept _ ?_ (notCopy g inside changed).2.symm, copy]
        intro same
        rw [same, reads.stands] at free
        cases free
      · rwa [kept _ ?_ (notCopy g inside changed).1.symm]
        exact fun same => fresh (same ▸ List.mem_map_of_mem inside)
    · obtain rfl := List.mem_singleton.mp last
      obtain ⟨codec, encoded, known, encodes, rfl⟩ := writes
      refine ⟨freeBefore, ?_, codec, encoded, known, encodes, ?_⟩
      · rw [tree, Function.update_of_ne apart, Function.update_self]
      · rw [tree, Function.update_self]
  · intro l elsewhere
    obtain ⟨notLive, notCopy⟩ := elsewhere f (by simp) changed
    rw [tree, Function.update_of_ne notLive, Function.update_of_ne notCopy]
    exact tally.rest l fun g member => elsewhere g (List.mem_append_left _ member)

/-- The new entries of a tree are the copies of files that have been changed. -/
theorem new_iff (tally : Tally tools options files w v visits) (l : Location) :
    (w.tree.get? l = none ∧ v.tree.get? l ≠ none) ↔
      l ∈ (visits.filter Visit.changed).map (Visit.copy options.suffix) := by
  constructor
  · intro new
    by_contra elsewhere
    apply new.2
    rw [tally.rest l, new.1]
    intro g member changed
    refine ⟨fun same => ?_, fun same => ?_⟩
    · rw [same, (tally.reads g member).stands] at new
      cases new.1
    · rw [same] at elsewhere
      exact elsewhere (List.mem_map_of_mem (List.mem_filter.mpr ⟨member, changed⟩))
  · intro member
    obtain ⟨g, inside, rfl⟩ := List.mem_map.mp member
    obtain ⟨visited, changed⟩ := List.mem_filter.mp inside
    have saved := tally.saves g visited changed
    rw [saved.copy]
    exact ⟨saved.free, Option.some_ne_none _⟩

/-- No two copies stand in one place. -/
theorem nodup_copies (tally : Tally tools options files w v visits) :
    ((visits.filter Visit.changed).map (Visit.copy options.suffix)).Nodup := by
  have lives : ((visits.filter Visit.changed).map Visit.live).Nodup :=
    tally.apart.sublist (List.filter_sublist.map _)
  rw [List.Nodup, List.pairwise_map] at lives ⊢
  exact lives.imp fun different same => different (Visit.live_of_copy same)

end Tally

/-- A summary counts visits, and files that could not be read. -/
structure RunSummary.Counts (s : RunSummary) (visits : List Visit) (unread : List Path) :
    Prop where
  scanned : s.filesScanned = visits.length
  skipped : s.filesSkipped = unread.length
  changed : s.filesChanged = (visits.filter Visit.changed).length
  total : s.totalChanges = ((visits.filter Visit.changed).map Visit.changes).sum

namespace RunSummary.Counts

variable {s : RunSummary} {visits : List Visit} {unread : List Path}

theorem skip (counts : s.Counts visits unread) (path : Path) :
    (s.add none).Counts visits (unread ++ [path]) := by
  refine ⟨counts.scanned, ?_, counts.changed, counts.total⟩
  rw [add, List.length_append, List.length_singleton, counts.skipped]

theorem visit (counts : s.Counts visits unread) {f : Visit} {r : FileResult}
    (same : r.changes = f.changes) : (s.add (some r)).Counts (visits ++ [f]) unread := by
  have scanned : (s.add (some r)).filesScanned = (visits ++ [f]).length := by
    rw [add, List.length_append, List.length_singleton, counts.scanned]
  by_cases none : f.changes = 0
  · have kept : (visits ++ [f]).filter Visit.changed = visits.filter Visit.changed := by
      rw [List.filter_append, List.filter_cons_of_neg (by simp [Visit.changed, none])]
      exact List.append_nil _
    refine ⟨scanned, counts.skipped, ?_, ?_⟩
    · rw [kept, ← counts.changed, add, same, if_pos none, Nat.add_zero]
    · rw [kept, ← counts.total, add, same, none, Nat.add_zero]
  · have more : (visits ++ [f]).filter Visit.changed = visits.filter Visit.changed ++ [f] := by
      rw [List.filter_append, List.filter_cons_of_pos (by simp [Visit.changed, none])]
      rfl
    refine ⟨scanned, counts.skipped, ?_, ?_⟩
    · rw [more, List.length_append, ← counts.changed, add, same, if_neg none]
      rfl
    · rw [more, List.map_append, List.map_singleton, List.sum_append, List.sum_singleton,
        ← counts.total, add, same]

end RunSummary.Counts

/-- What a run has done when some paths are behind it: it has visited files, could not read others,
and told of it. -/
structure Progress (tools : Tools) (options : RunOptions) (files : List Path) (w v : World)
    (summary : RunSummary) (behind : List Path) (visits : List Visit) (unread : List Path)
    (told : List Text) : Prop where
  tally : Tally tools options files w v visits
  counts : summary.Counts visits unread
  paths : (unread ++ visits.map Visit.path).Perm behind
  shows : tools.sink.Shows w v told
  announced : told.filterMap Run.announced? = (visits.filter Visit.changed).map Visit.changes

namespace Run

variable {tools : Tools} {options : RunOptions} {files : List Path} {w u v : World}
  {visits : List Visit} {told : List Text} {path : Path} {around : Location} {name : EntryName}
  {data : Bytes} {mode : Nat}

/-- Updating a file that has been read is a visit. -/
theorem updateFile_visits (tally : Tally tools options files w u visits)
    (shows : tools.sink.Shows w u told) (closed : w.tree.Closed) (free : w.tree.LinkFree)
    (listed : path ∈ files) (plain : ¬path.name.endsWith options.suffix)
    (file : Names w path around name data mode) (fresh : around ++ [name] ∉ visits.map Visit.live)
    (sees : w.Sees) {codec : Codec} (known : w.codec? options.encoding = some codec) {t : Text}
    (decoded : codec.decode data = .ok t) :
    (updateFile tools options path t).Ensures u
      (fun result v => ∃ f more, f.path = path ∧ result.1 = f.changes ∧
        Tally tools options files w v (visits ++ [f]) ∧ tools.sink.Shows w v (told ++ more) ∧
        more.filterMap announced? = ([f].filter Visit.changed).map Visit.changes)
      (fun _ _ => True) := by
  unfold updateFile
  rw [Action.ensures_bind]
  refine ((updateText_ensures u _ _ t).and (within_updateText Still _ _ t u)).mono ?_
    fun _ _ _ => trivial
  intro updated v outcome
  obtain ⟨⟨unmoved, updates⟩, still⟩ := outcome
  have tally := tally.of_unmoved unmoved
  have shows := shows.of_sameOutput still.sameOutput
  let f : Visit := ⟨path, around, name, data, mode, updated⟩
  have reads : f.Reads tools options.encoding w :=
    ⟨file.leads, codec, t, known, decoded, updates⟩
  rw [Action.ensures_ite]
  refine ⟨fun none => ?_, fun some => ?_⟩
  · have unchanged : f.changed = false := by simp [Visit.changed, Visit.changes, f, none]
    refine ⟨f, [], rfl, none.symm, tally.pass reads unchanged fresh, by rwa [List.append_nil], ?_⟩
    rw [List.filter_singleton, unchanged]
    rfl
  · have changed : f.changed = true := by simp [Visit.changed, Visit.changes, f, some]
    rw [Action.ensures_bind]
    have logs : Action.Within Still (updated.applied.forM (logChange path)) :=
      .forM fun _ => .log _ _
    refine (logs v).mono ?_ fun _ _ _ => trivial
    intro _ v' still
    have tally := tally.of_unmoved still.unmoved
    have shows := shows.of_sameOutput still.sameOutput
    rw [Action.ensures_bind]
    refine (shows.emit_ensures (announcement path updated.changes)).mono ?_ fun _ _ _ => trivial
    intro _ x outcome
    have tally := tally.of_unmoved outcome.1
    have setting := tally.renewed.setting
    rw [Action.ensures_bind]
    refine (((tally.names file fresh).save_ensures (tally.renewed.closed closed)
      (tally.renewed.linkFree free) ((sees_of_setting setting).mpr sees) updated.text
      options.suffix options.encoding).and
      (within_save SameOutput path _ _ _ x)).mono ?_ fun _ _ _ => trivial
    intro backup y saved
    obtain ⟨⟨still, bytes, aside, writes⟩, quiet⟩ := saved
    refine ⟨f, [announcement path updated.changes], rfl, rfl, ?_,
      outcome.2.of_sameOutput quiet, ?_⟩
    · exact tally.save reads listed plain file fresh changed
        ((writes_of_setting setting).mp writes) still aside
    · rw [List.filter_singleton, changed]
      simp [announced?_announcement, Visit.changes, f]

variable {summary : RunSummary} {behind unread : List Path}

/-- One more path is behind a run. -/
theorem processFile_progress
    (progress : Progress tools options files w u summary behind visits unread told)
    (changes : options.change = true) (closed : w.tree.Closed) (free : w.tree.LinkFree)
    (listed : path ∈ files) (plain : ¬path.name.endsWith options.suffix)
    (file : Names w path around name data mode)
    (fresh : around ++ [name] ∉ visits.map Visit.live) (sees : w.Sees) :
    (processFile tools options path).Ensures u
      (fun result v => ∃ visits unread told, Progress tools options files w v (summary.add result)
        (behind ++ [path]) visits unread told)
      (fun _ _ => True) := by
  unfold processFile
  rw [Action.ensures_bind]
  refine ((readFile?_ensures u path options.encoding).and
    (within_readFile? SameOutput path options.encoding u)).mono ?_ fun _ _ _ => trivial
  intro answer v outcome
  obtain ⟨⟨unmoved, reads⟩, quiet⟩ := outcome
  have tally := progress.tally.of_unmoved unmoved
  have shows := progress.shows.of_sameOutput quiet
  cases answer with
  | none =>
    refine ⟨visits, unread ++ [path], told, tally, progress.counts.skip path, ?_, shows,
      progress.announced⟩
    have last : (unread ++ [path] ++ visits.map Visit.path).Perm
        (unread ++ visits.map Visit.path ++ [path]) := by
      rw [List.append_assoc, List.append_assoc]
      exact List.perm_append_comm.append_left unread
    exact last.trans (progress.paths.append_right [path])
  | some t =>
    obtain ⟨codec, place, e, known, finds, decoded⟩ := reads t rfl
    cases finds.symm.trans (progress.tally.names file fresh).leads
    rw [codec?_of_setting progress.tally.renewed.setting] at known
    dsimp only
    rw [Action.ensures_bind]
    refine (Action.Within.forM (within_logDetected Still path) v).mono ?_ fun _ _ _ => trivial
    intro _ v' still
    have tally := tally.of_unmoved still.unmoved
    have shows := shows.of_sameOutput still.sameOutput
    rw [Action.ensures_bind, Action.ensures_get, Action.ensures_bind]
    refine (shows.forM_emit_ensures _).mono ?_ fun _ _ _ => trivial
    intro _ x outcome
    rw [if_pos changes, Action.ensures_bind]
    refine (updateFile_visits (tally.of_unmoved outcome.1) outcome.2 closed free listed plain file
      fresh sees known (decoded data mode rfl)).mono ?_ fun _ _ _ => trivial
    intro result y visited
    obtain ⟨f, more, rfl, same, tally, shows, announced⟩ := visited
    refine ⟨visits ++ [f], unread, _, tally, progress.counts.visit same, ?_, shows, ?_⟩
    · rw [List.map_append, ← List.append_assoc]
      exact progress.paths.append_right _
    · rw [List.filterMap_append, List.filterMap_append, progress.announced, announced,
        List.filter_append, List.map_append]
      -- A report announces nothing.
      congr 1
      apply List.append_right_eq_self.mpr
      exact List.filterMap_eq_nil_iff.mpr fun line => announced?_report

/-- All paths but those of saved copies come to be behind a run, one after the other. -/
theorem processFiles_progress {paths : List Path}
    (progress : Progress tools options files w u summary behind visits unread told)
    (changes : options.change = true) (closed : w.tree.Closed) (free : w.tree.LinkFree)
    (named : ∀ path ∈ files, ∃ around name data mode, Names w path around name data mode)
    (apart : ∀ path ∈ files, ∀ other ∈ files, ∀ place e e', w.find path.text = .ok ⟨place, e⟩ →
      w.find other.text = .ok ⟨place, e'⟩ → path = other)
    (listed : ∀ path ∈ behind ++ paths, path ∈ files) (once : (behind ++ paths).Nodup)
    (sees : w.Sees) :
    (processFiles tools options summary paths).Ensures u
      (fun summary v => ∃ visits unread told, Progress tools options files w v summary
        (behind ++ paths.filter fun path => !path.name.endsWith options.suffix) visits unread told)
      (fun _ _ => True) := by
  induction paths generalizing u summary behind visits unread told with
  | nil =>
    rw [List.filter_nil, List.append_nil]
    exact ⟨visits, unread, told, progress⟩
  | cons path rest ih =>
    rw [processFiles, Action.ensures_ite]
    refine ⟨fun saved => ?_, fun plain => ?_⟩
    · have fewer : (behind ++ rest).Sublist (behind ++ path :: rest) :=
        (List.sublist_cons_self path rest).append_left _
      rw [List.filter_cons_of_neg (by simpa using saved)]
      exact ih progress (fun other member => listed other (fewer.subset member))
        (once.sublist fewer)
    · have here : path ∈ files := listed path (by simp)
      obtain ⟨around, name, data, mode, file⟩ := named path here
      have fresh : around ++ [name] ∉ visits.map Visit.live := by
        intro visited
        obtain ⟨f, member, same⟩ := List.mem_map.mp visited
        have before : f.path ∈ behind :=
          progress.paths.subset (List.mem_append_right _ (List.mem_map_of_mem member))
        have leads := (progress.tally.reads f member).leads
        rw [same] at leads
        obtain rfl := apart f.path (listed _ (List.mem_append_left _ before)) path here _ _ _ leads
          file.leads
        exact (List.nodup_append.mp once).2.2 _ before _ List.mem_cons_self rfl
      rw [Action.ensures_bind]
      refine (processFile_progress progress changes closed free here plain file fresh sees).mono ?_
        fun _ _ _ => trivial
      intro result v outcome
      obtain ⟨visits, unread, told, progress⟩ := outcome
      rw [List.append_cons] at listed once
      refine (ih progress listed once).mono ?_ fun _ _ _ => trivial
      intro summary x outcome
      rwa [List.filter_cons_of_pos (by simpa using plain), List.append_cons]

end Run

/-- No two paths of a walk lead to one place. -/
theorem Walker.Walked.eq_of_find {w : World} {root : Path} {pattern : Text} {files : List Path}
    (walked : Walked w root pattern files) (free : w.tree.LinkFree) (clean : root.Clean)
    {path other : Path} (member : path ∈ files) (member' : other ∈ files) {place : Location}
    {e e' : Option Entry} (finds : w.find path.text = .ok ⟨place, e⟩)
    (finds' : w.find other.text = .ok ⟨place, e'⟩) : path = other := by
  obtain ⟨names, name, rfl, valid, -, -⟩ := (walked.mem_iff path).mp member
  obtain ⟨names', name', rfl, valid', -, -⟩ := (walked.mem_iff other).mp member'
  obtain ⟨here, -⟩ := Found.mk.inj (find_below free clean valid finds)
  obtain ⟨there, -⟩ := Found.mk.inj (find_below free clean valid' finds')
  rw [List.append_cancel_left (here.symm.trans there)]

section Runs

variable {tools : Tools} {options : RunOptions} {followLinks : Bool} {w v : World}

theorem run_progress (sound : w.tree.Sound) (free : w.tree.LinkFree)
    (native : tools.walker = .native followLinks) (keeps : options.reset = false)
    (scans : options.diff = false) (changes : options.change = true) (sees : w.Sees) :
    (run tools options).Ensures w
      (fun summary v => ∃ files visits unread told,
        (∃ u, (tools.walker.walk (.ofText options.path) options.name).run w = .ok files u) ∧
        Progress tools options files w v summary
          (files.filter fun path => !path.name.endsWith options.suffix) visits unread told)
      (fun _ _ => True) := by
  have clean := Path.clean_ofText options.path
  unfold run Run.restoreFirst
  rw [keeps, if_neg (by simp), Action.ensures_bind, Action.ensures_pure, if_neg (by simp [scans])]
  unfold Run.scan
  rw [native, Action.ensures_bind]
  refine ((Walker.walkNative_ensures sound free clean followLinks options.name).and
    (Walker.within_walk SameOutput (.native followLinks) _ _ w)).with_run.mono ?_
      fun _ _ _ => trivial
  intro files u outcome
  obtain ⟨walks, ⟨unmoved, walked⟩, quiet⟩ := outcome
  have start : Progress tools options files w u {} [] [] [] [] := by
    refine ⟨⟨(Renewed.refl _ _ w).of_unmoved unmoved, List.nodup_nil, by simp, by simp, ?_⟩,
      ⟨rfl, rfl, rfl, rfl⟩, .nil, (Sink.Shows.refl _ w).of_sameOutput quiet, rfl⟩
    exact fun l _ => by rw [unmoved.tree]
  rw [Action.ensures_bind]
  refine (Run.processFiles_progress start changes sound.closed free
    (Walker.answersFiles_native sound free clean followLinks options.name files u walks)
    (fun _ member _ member' _ _ _ => walked.eq_of_find free clean member member')
    (fun _ member => member) walked.nodup sees).mono ?_ fun _ _ _ => trivial
  intro summary x outcome
  obtain ⟨visits, unread, told, progress⟩ := outcome
  rw [if_pos changes, Action.ensures_bind]
  refine (progress.shows.emit_ensures summary.line).mono ?_ fun _ _ _ => trivial
  intro _ y emitted
  have logs : ∀ parts, Action.Within Still (Action.log .debug parts) := fun _ => .log _ _
  rw [Action.ensures_bind]
  refine (logs _ y).mono ?_ fun _ _ _ => trivial
  intro _ v still
  refine ⟨files, visits, unread, told ++ [summary.line], ⟨u, walks⟩,
    (progress.tally.of_unmoved emitted.1).of_unmoved still.unmoved, progress.counts,
    progress.paths, emitted.2.of_sameOutput still.sameOutput, ?_⟩
  rw [List.filterMap_append, progress.announced, List.filterMap_cons_none (Run.announced?_line _)]
  exact List.append_nil _

/-- An account of what a run has done: `files` are the paths of its walk, `visits` the files that it
has read, `done` those that it has changed, and `told` the lines that it has emitted. -/
structure Account (tools : Tools) (options : RunOptions) (w v : World) (summary : RunSummary)
    (files : List Path) (visits done : List Visit) (unread : List Path) (told : List Text) :
    Prop where
  walk : ∃ u, (tools.walker.walk (.ofText options.path) options.name).run w = .ok files u
  /-- All files are visited that are no saved copies and can be read. -/
  paths : (unread ++ visits.map Visit.path).Perm
    (files.filter fun path => !path.name.endsWith options.suffix)
  scanned : summary.filesScanned = visits.length
  skipped : summary.filesSkipped = unread.length
  scannedAndSkipped : summary.filesScanned + summary.filesSkipped =
    (files.filter fun path => !path.name.endsWith options.suffix).length
  reads : ∀ f ∈ visits, f.Reads tools options.encoding w
  /-- The entries that are new are copies, one for each file that was changed. -/
  new : ∀ l, (w.tree.get? l = none ∧ v.tree.get? l ≠ none) ↔
    l ∈ done.map (Visit.copy options.suffix)
  copies : (done.map (Visit.copy options.suffix)).Nodup
  changed : summary.filesChanged = done.length
  saves : ∀ f ∈ done, f.Saves options.encoding options.suffix w v
  /-- A file holds all of its encoded update exactly if nothing is needed to close it. -/
  whole : ∀ f ∈ done, ∀ codec encoded, w.codec? options.encoding = some codec →
    codec.encode f.update.text = .ok encoded →
    (v.tree.get? f.live = some (.file encoded.whole f.mode) ↔ encoded.closing = [])
  /-- Nothing else has changed. -/
  rest : ∀ l, v.tree.get? l ≠ w.tree.get? l →
    ∃ f ∈ done, l = f.live ∨ l = f.copy options.suffix
  total : summary.totalChanges = (done.map Visit.changes).sum
  shows : tools.sink.Shows w v told
  announced : summary.totalChanges = (told.filterMap Run.announced?).sum

/-- The summary of a run agrees with the tree that it leaves and with the lines that it emits, as
long as the run can see whether there is a copy already. -/
theorem run_tally (sound : w.tree.Sound) (free : w.tree.LinkFree) (sees : w.Sees)
    (native : tools.walker = .native followLinks) (keeps : options.reset = false)
    (scans : options.diff = false) (changes : options.change = true) {summary : RunSummary}
    (returns : (run tools options).run w = .ok summary v) :
    ∃ files visits unread told, Account tools options w v summary files visits
      (visits.filter Visit.changed) unread told := by
  obtain ⟨files, visits, unread, told, walks, progress⟩ :=
    (run_progress sound free native keeps scans changes sees).of_ok returns
  have counts := progress.counts
  have tally := progress.tally
  have saves : ∀ f ∈ visits.filter Visit.changed, f.Saves options.encoding options.suffix w v := by
    intro f member
    obtain ⟨visited, changed⟩ := List.mem_filter.mp member
    exact tally.saves f visited changed
  refine ⟨files, visits, unread, told, walks, progress.paths, counts.scanned, counts.skipped, ?_,
    tally.reads, tally.new_iff, tally.nodup_copies, counts.changed, saves, ?_, ?_, counts.total,
    progress.shows, ?_⟩
  · rw [← progress.paths.length_eq, List.length_append, List.length_map, counts.scanned,
      counts.skipped, Nat.add_comm]
  · intro f member codec encoded known encodes
    obtain ⟨codec', encoded', known', encodes', live⟩ := (saves f member).live
    cases known.symm.trans known'
    cases encodes.symm.trans encodes'
    rw [live]
    simp [Encoded.whole]
  · intro l differs
    by_contra elsewhere
    apply differs
    apply tally.rest
    intro f member changed
    have done := List.mem_filter.mpr ⟨member, changed⟩
    exact ⟨fun same => elsewhere ⟨f, done, .inl same⟩, fun same => elsewhere ⟨f, done, .inr same⟩⟩
  · rw [progress.announced, counts.total]

/-- The account of a run on `lone`: one change in one file. -/
theorem run_tally_lone : ∃ summary v files visits unread told,
    (run brief updating).run lone = .ok summary v ∧ summary.totalChanges = 1 ∧
    Account brief updating lone v summary files visits (visits.filter Visit.changed) unread
      told := by
  have once : ((run brief updating).returned? lone).map (fun p => p.1.totalChanges) =
      some 1 := by
    decide +kernel
  obtain ⟨sound, free⟩ := sound_lone
  have sees : lone.Sees := fun _ _ => rfl
  generalize lone = w at once sound free sees ⊢
  obtain ⟨p, returned, counted⟩ := Option.map_eq_some_iff.mp once
  have returns := Action.run_of_returned? returned
  obtain ⟨files, visits, unread, told, account⟩ :=
    run_tally sound free sees rfl rfl rfl rfl returns
  exact ⟨p.1, p.2, files, visits, unread, told, returns, counted, account⟩

/-- A run counts a file as changed that does not hold all of its encoded update. -/
theorem update_counted_open : ∃ codec t u encoded summary v,
    loneShifted.codec? "iso2022_jp" = some codec ∧ codec.decode shiftedBytes = .ok t ∧
    update brief.rules.rules t brief.engine = .ok u ∧ codec.encode u.text = .ok encoded ∧
    (run brief updatingShifted).run loneShifted = .ok summary v ∧ summary.filesChanged = 1 ∧
    v.tree.get? [[97] ++ suffixBytes] = some (.file shiftedBytes 0o640) ∧
    v.tree.get? [[97]] ≠ some (.file encoded.whole 0o640) := by
  obtain ⟨codec, t, u, encoded, summary, v, known, decodes, updates, encodes, returns, once, copy,
    live, -, cut⟩ := run_loneShifted
  refine ⟨codec, t, u, encoded, summary, v, known, decodes, updates, encodes, returns, once, copy,
    ?_⟩
  rw [live]
  simpa using cut

end Runs

end Renewal
