import Mathlib.Data.Set.Finite.List
import Mathlib.Order.Filter.Finite
import Renewal.Proofs.AccessPath
import Renewal.Proofs.Tour

/-! # What a walk finds in a tree with links

In a tree with links many paths lead to a directory, and some may lead around in circles. A walk
enters each directory that can be reached once, by the first path that leads it there. What it finds
is told by the place of the directory and the name there (`World.entryOf`): every entry that matches
and leads to a file is found, and none is found twice (`walk_enters_once`). Limits on the number of
links and on the length of paths are not considered; a name that is too long is what can still stop
a walk.
-/

namespace Renewal

open Renewal.Tree World FileSystem Relation Filter

namespace Tree

variable {t : Tree} {place goal : Location} {name : EntryName}

/-- The names in a tree. -/
def nameList (t : Tree) : List EntryName :=
  (t.entries.map Prod.fst).flatten

theorem mem_nameList (present : (t.get? (place ++ [name])).isSome) : name ∈ t.nameList := by
  obtain ⟨e, entry⟩ := Option.isSome_iff_exists.mp present
  have member := mem_entries_of_get? (by simp) entry
  exact List.mem_flatten.mpr ⟨_, List.mem_map_of_mem member, by simp⟩

/-- A directory leads on to another one: an entry in it is that directory or, if links are followed,
leads there. -/
def Next (t : Tree) (followLinks : Bool) (place goal : Location) : Prop :=
  ∃ name ∈ t.namesIn place,
    (followLinks = true ∨ ∀ target, t.get? (place ++ [name]) ≠ some (.link target)) ∧
      Route t place [name] goal ∧ t.get? goal = some .directory

/-- A directory can be reached from another one. -/
abbrev Reaches (t : Tree) (followLinks : Bool) : Location → Location → Prop :=
  ReflTransGen (t.Next followLinks)

/-- An entry of a directory matches a pattern and leads to a regular file. -/
def HoldsFile (t : Tree) (pattern : Text) (place : Location) (name : EntryName) : Prop :=
  name ∈ t.namesIn place ∧ globMatches pattern (Utf8.decode name) = true ∧
    ∃ goal data mode, Route t place [name] goal ∧ t.get? goal = some (.file data mode)

/-- An entry of a directory matches a pattern and leads to a name that is too long. -/
def HoldsOverlong (t : Tree) (longest : Nat) (pattern : Text) (place : Location)
    (name : EntryName) : Prop :=
  name ∈ t.namesIn place ∧ globMatches pattern (Utf8.decode name) = true ∧
    Overlong t longest place [name]

end Tree

/-- The directory around a path, by its place, and the name in it. -/
def World.entryOf (w : World) (p : Path) : Option (Location × EntryName) :=
  match w.find p.parent.text with
  | .ok around => some (around.location, Encoding.nameBytes p.name)
  | .error _ => none

namespace Walker

open Tour

variable {w : World} {root : Path} {followLinks : Bool} {pattern directory : Text}
  {top place goal : Location} {names : Location} {name : EntryName} {depth : Nat}

/-- A walk can list every directory below its root: no limit is in the way, and no listing is made
to fail. -/
structure Open (w : World) (root : Path) : Prop where
  sound : w.tree.Sound
  fits : w.tree.Fits w.limits.name
  clean : root.Clean
  written : isPath root.text = true
  unhindered : ∀ time path, w.faults time (.list path) = none
  ample : ∀ names : Location, names.length ≤ w.tree.entries.length + 2 →
    (∀ name ∈ names, name ∈ w.tree.nameList) →
    w.Ample (root.directoryText names) ∧ w.Ample (root.below names).text

/-- Names of entries lead from a root to a directory. -/
structure Below (w : World) (root : Path) (names : Location) (place : Location) : Prop where
  valid : ∀ name ∈ names, IsEntryName name
  among : ∀ name ∈ names, name ∈ w.tree.nameList
  leads : w.Leads (root.below names) place
  isDirectory : w.tree.get? place = some .directory
  shallow : names.length ≤ w.tree.entries.length + 1

namespace Below

variable (free : Open w root) (below : Below w root names place)

include free below

theorem lists : Lists w (root.directoryText names) place := by
  refine ⟨fun time => free.unhindered time _, ?_⟩
  have ample := free.ample names (below.shallow.trans (Nat.le_succ _)) below.among
  refine ample.1.find_directory (Path.directoryText_ne_nil free.clean names) ?_ below.isDirectory
  rw [Path.ofText_directoryText free.clean below.valid]
  exact below.leads

/-- The directory around an entry is found by the path of the entry. -/
theorem entryOf_eq (name : EntryName) :
    w.entryOf (root.below (names ++ [name])) = some (place, name) := by
  have parent : (root.below (names ++ [name])).parent = root.below names := by
    simp [Path.parent, Path.below]
  have last : (root.below (names ++ [name])).name = Utf8.decode name := by
    simp [Path.name, Path.below]
  have clean := free.clean.below below.valid
  have ample := free.ample names (below.shallow.trans (Nat.le_succ _)) below.among
  have found := ample.2.find_directory (Path.text_ne_nil _ clean)
    (by rw [Path.ofText_text clean]; exact below.leads) below.isDirectory
  rw [entryOf, parent, last, found, Encoding.nameBytes_decode]

variable (inside : name ∈ w.tree.namesIn place)

include inside

theorem valid_concat : ∀ part ∈ names ++ [name], IsEntryName part := by
  intro part member
  rcases List.mem_append.mp member with before | last
  · exact below.valid part before
  · rw [List.mem_singleton.mp last]
    exact free.sound.names _ (mem_namesIn.mp inside) name (by simp)

omit free in
theorem among_concat : ∀ part ∈ names ++ [name], part ∈ w.tree.nameList := by
  intro part member
  rcases List.mem_append.mp member with before | last
  · exact below.among part before
  · rw [List.mem_singleton.mp last]
    exact mem_nameList (mem_namesIn.mp inside)

theorem ample_concat : w.Ample (root.directoryText (names ++ [name])) ∧
    w.Ample (root.below (names ++ [name])).text := by
  refine free.ample (names ++ [name]) ?_ (below.among_concat inside)
  rw [List.length_append, List.length_singleton]
  exact Nat.add_le_add_right below.shallow 1

/-- A name leads from a directory to another one as the path of the entry does. -/
theorem leadsToDirectory_iff :
    leadsToDirectory w (root.directoryText (names ++ [name])) = true ↔
      ∃ goal, Route w.tree place [name] goal ∧ w.tree.get? goal = some .directory := by
  have valid := valid_concat free below inside
  have ample := (ample_concat free below inside).1
  have read := Path.ofText_directoryText free.clean valid
  unfold leadsToDirectory
  constructor
  · intro leads
    split at leads
    · rename_i found finds
      obtain ⟨goal, entry⟩ := found
      obtain rfl : entry = some .directory := by simpa using leads
      have leads := leads_of_find finds
      rw [read, leads_below_concat below.leads] at leads
      exact ⟨goal, leads, (entry_of_find finds).symm⟩
    · cases leads
  · rintro ⟨goal, route, isDirectory⟩
    rw [ample.find_directory (Path.directoryText_ne_nil free.clean _)
      (by rw [read, leads_below_concat below.leads]; exact route) isDirectory]
    rfl

theorem countsAsDirectory_iff :
    countsAsDirectory w place name (root.directoryText (names ++ [name])) = true ↔
      ∃ goal, Route w.tree place [name] goal ∧ w.tree.get? goal = some .directory := by
  have proper := (valid_concat free below inside name (by simp)).proper
  -- What is no link leads to itself.
  have plain : ∀ e, w.tree.get? (place ++ [name]) = some e → (∀ target, e ≠ .link target) →
      (e = .directory ↔
        ∃ goal, Route w.tree place [name] goal ∧ w.tree.get? goal = some .directory) := by
    intro e entry notLink
    have step : Route w.tree place [name] (place ++ [name]) :=
      .enter below.isDirectory proper (fun target link => notLink target (by
        rw [entry] at link
        exact Option.some.inj link)) (.stop _)
    constructor
    · rintro rfl
      exact ⟨_, step, entry⟩
    · rintro ⟨goal, route, isDirectory⟩
      cases step.unique route
      exact Option.some.inj (entry.symm.trans isDirectory)
  unfold countsAsDirectory
  cases entry : w.tree.get? (place ++ [name]) with
  | none => simp [mem_namesIn, entry] at inside
  | some e =>
    cases e with
    | link target => exact leadsToDirectory_iff free below inside
    | directory | pipe => simpa using plain _ entry (by simp)
    | file data mode => simpa using plain _ entry (by simp)

theorem isLink_iff : isLink w (root.directoryText (names ++ [name])) = true ↔
    ∃ target, w.tree.get? (place ++ [name]) = some (.link target) := by
  have found := (ample_concat free below inside).1.find_unfollowed free.fits free.clean
    (valid_concat free below inside) below.leads below.isDirectory (mem_namesIn.mp inside)
  unfold isLink
  rw [found]
  cases entry : w.tree.get? (place ++ [name]) with
  | none => simp
  | some e => cases e <;> simp

omit inside

theorem mem_onward_iff : directory ∈ onward w followLinks (root.directoryText names) place ↔
    ∃ name ∈ w.tree.namesIn place,
      (followLinks = true ∨ ∀ target, w.tree.get? (place ++ [name]) ≠ some (.link target)) ∧
      (∃ goal, Route w.tree place [name] goal ∧ w.tree.get? goal = some .directory) ∧
      directory = root.directoryText (names ++ [name]) := by
  simp only [onward, ← Path.directoryText_concat, List.mem_filter, List.mem_map, mem_listed,
    Bool.or_eq_true, Bool.not_eq_true']
  constructor
  · rintro ⟨⟨name, ⟨inside, counts⟩, rfl⟩, allowed⟩
    refine ⟨name, inside, allowed.imp_right fun none target link => ?_,
      (countsAsDirectory_iff free below inside).mp counts, rfl⟩
    rw [(isLink_iff free below inside).mpr ⟨target, link⟩] at none
    cases none
  · rintro ⟨name, inside, allowed, leads, rfl⟩
    refine ⟨⟨name, ⟨inside, (countsAsDirectory_iff free below inside).mpr leads⟩, rfl⟩,
      allowed.imp_right fun none => ?_⟩
    rw [Bool.eq_false_iff, ne_eq, isLink_iff free below inside]
    exact fun ⟨target, link⟩ => none target link

theorem mem_others_iff : name ∈ others w (root.directoryText names) place ↔
    name ∈ w.tree.namesIn place ∧
      ¬∃ goal, Route w.tree place [name] goal ∧ w.tree.get? goal = some .directory := by
  simp only [others, ← Path.directoryText_concat, List.mem_filter, mem_listed,
    Bool.not_eq_true']
  refine and_congr_right fun inside => ?_
  rw [Bool.eq_false_iff, ne_eq, countsAsDirectory_iff free below inside]

theorem child_eq (inside : name ∈ w.tree.namesIn place) :
    (Path.ofText (root.directoryText names)).child (Utf8.decode name) =
      root.below (names ++ [name]) :=
  child_below free.clean (valid_concat free below inside)

/-- The path of an entry has no null character. -/
theorem written_concat (inside : name ∈ w.tree.namesIn place) :
    isPath ((root.below (names ++ [name])).text) = true :=
  Path.isPath_below free.written (valid_concat free below inside)

theorem find_entry (inside : name ∈ w.tree.namesIn place) :
    (∀ goal e, w.find (root.below (names ++ [name])).text = .ok ⟨goal, some e⟩ ↔
      Route w.tree place [name] goal ∧ w.tree.get? goal = some e) ∧
      (w.find (root.below (names ++ [name])).text = .error .nameTooLong ↔
        Overlong w.tree w.limits.name place [name]) :=
  (ample_concat free below inside).2.find_entry free.fits free.clean
    (valid_concat free below inside) below.leads below.isDirectory

/-- A question that is refused is about an entry that leads to a name that is too long. -/
theorem overlong_of_refuses {path : Text} {failure : Failure}
    (asks : Asks w pattern (root.directoryText names, place) path)
    (refuses : Refuses w path failure) :
    failure = failed path .nameTooLong ∧
      ∃ name, HoldsOverlong w.tree w.limits.name pattern place name := by
  obtain ⟨name, other, fits, rfl⟩ := asks
  obtain ⟨inside, -⟩ := (mem_others_iff free below).mp other
  rw [child_eq free below inside] at refuses ⊢
  obtain ⟨long, tells⟩ := refuses.tooLong
  exact ⟨tells, name, inside, fits, (find_entry free below inside).2.mp long⟩

/-- Where an entry leads to a name that is too long, a question is refused. -/
theorem not_canAsk_of_overlong (holds : HoldsOverlong w.tree w.limits.name pattern place name) :
    ∃ path, Asks w pattern (root.directoryText names, place) path ∧ ¬CanAsk w path := by
  obtain ⟨inside, fits, overlong⟩ := holds
  refine ⟨_, ⟨name, (mem_others_iff free below).mpr ⟨inside, ?_⟩, fits, rfl⟩, ?_⟩
  · rintro ⟨goal, route, isDirectory⟩
    exact route.not_overlong free.fits (by rw [isDirectory]; rfl) overlong
  · rw [child_eq free below inside]
    have long := (find_entry free below inside).2.mpr overlong
    rintro (null | absent)
    · rw [written_concat free below inside] at null
      cases null
    · cases absent _ long

/-- In a directory a walk finds the entries that lead to files, each once. -/
theorem filesAt_spec (pattern : Text) : ∃ found : List EntryName, found.Nodup ∧
    (∀ name, name ∈ found ↔ HoldsFile w.tree pattern place name) ∧
    filesAt w pattern (root.directoryText names, place) =
      found.map fun name => root.below (names ++ [name]) := by
  refine ⟨(others w (root.directoryText names) place).filter fun name =>
    globMatches pattern (Utf8.decode name) && leadsToFile w (root.below (names ++ [name])).text,
    ((nodup_listed free.sound.distinct place).filter _).filter _, fun name => ?_, ?_⟩
  · simp only [List.mem_filter, mem_others_iff free below, Bool.and_eq_true, leadsToFile_iff]
    constructor
    · rintro ⟨⟨inside, -⟩, fits, -, goal, data, mode, finds⟩
      obtain ⟨route, file⟩ := ((find_entry free below inside).1 _ _).mp finds
      exact ⟨inside, fits, goal, data, mode, route, file⟩
    · rintro ⟨inside, fits, goal, data, mode, route, file⟩
      refine ⟨⟨inside, ?_⟩, fits, written_concat free below inside, goal, data, mode,
        ((find_entry free below inside).1 _ _).mpr ⟨route, file⟩⟩
      rintro ⟨goal', route', isDirectory⟩
      cases route.unique route'
      rw [file] at isDirectory
      cases isDirectory
  · have child : ∀ name ∈ others w (root.directoryText names) place,
        (Path.ofText (root.directoryText names)).child (Utf8.decode name) =
          root.below (names ++ [name]) := fun name member =>
      child_eq free below ((mem_others_iff free below).mp member).1
    rw [filesAt, List.filter_map, List.map_map]
    rw [List.filter_congr fun name member => by rw [Function.comp_apply, child name member]]
    exact List.map_congr_left fun name member => child name (List.mem_of_mem_filter member)

/-- The names that lead on from a directory lead to directories below the root. -/
theorem concat (inside : name ∈ w.tree.namesIn place)
    (shallow : (names ++ [name]).length ≤ w.tree.entries.length + 1)
    (route : Route w.tree place [name] goal) (isDirectory : w.tree.get? goal = some .directory) :
    Below w root (names ++ [name]) goal where
  valid := valid_concat free below inside
  among := below.among_concat inside
  leads := (leads_below_concat below.leads).mpr route
  isDirectory := isDirectory
  shallow := shallow

end Below

/-- A tour has entered a place or will list a path to it. -/
def Tour.Covers (w : World) (s : Tour) (place : Location) : Prop :=
  place ∈ s.entered.map Prod.snd ∨ ∃ directory ∈ s.ahead, Lists w directory place

theorem Tour.Step.covers {s s' : Tour} (step : Tour.Step w followLinks s s')
    (covers : s.Covers w place) : s'.Covers w place := by
  cases step with
  | skip lists known =>
    obtain entered | ⟨directory, member, lists'⟩ := covers
    · exact .inl entered
    · rcases List.mem_cons.mp member with rfl | later
      · cases lists.unique lists'
        exact .inl known
      · exact .inr ⟨directory, later, lists'⟩
  | enter lists new =>
    obtain entered | ⟨directory, member, lists'⟩ := covers
    · exact .inl (by rw [List.map_append]; exact List.mem_append_left _ entered)
    · rcases List.mem_cons.mp member with rfl | later
      · cases lists.unique lists'
        exact .inl (by simp)
      · exact .inr ⟨directory, List.mem_append_right _ later, lists'⟩

/-- What holds of a tour in an open world: it has entered directories below the root that can be
reached, and others are ahead; from those it has entered, every directory that can be reached next
has been entered or is ahead. -/
structure Along (w : World) (root : Path) (followLinks : Bool) (top : Location) (s : Tour) :
    Prop where
  proper : Proper w s.entered
  entered : ∀ stop ∈ s.entered, w.tree.Reaches followLinks top stop.2 ∧
    ∃ names, stop.1 = root.directoryText names ∧ Below w root names stop.2
  ahead : ∀ directory ∈ s.ahead, ∃ names place, directory = root.directoryText names ∧
    names.length ≤ s.entered.length ∧ Below w root names place ∧
    w.tree.Reaches followLinks top place
  start : s.Covers w top
  closed : ∀ stop ∈ s.entered, ∀ goal, w.tree.Next followLinks stop.2 goal → s.Covers w goal

namespace Along

variable {s s' : Tour}

theorem step (free : Open w root) (step : Tour.Step w followLinks s s')
    (along : Along w root followLinks top s) : Along w root followLinks top s' := by
  have covered : ∀ {place}, s.Covers w place → s'.Covers w place := step.covers
  have proper := step.proper along.proper
  cases step with
  | skip lists known =>
    exact ⟨proper, along.entered, fun directory member => along.ahead directory
      (List.mem_cons_of_mem _ member), covered along.start,
      fun stop member goal next => covered (along.closed stop member goal next)⟩
  | @enter entered directory ahead place lists new =>
    obtain ⟨names, place', rfl, short, below, reaches⟩ := along.ahead directory List.mem_cons_self
    cases lists.unique (below.lists free)
    have bound := proper.length_le
    rw [List.length_append, List.length_singleton] at bound
    have below_concat : ∀ {name goal}, name ∈ w.tree.namesIn place →
        Route w.tree place [name] goal → w.tree.get? goal = some .directory →
        Below w root (names ++ [name]) goal := by
      intro name goal inside route isDirectory
      refine below.concat free inside ?_ route isDirectory
      rw [List.length_append, List.length_singleton]
      exact (Nat.add_le_add_right short 1).trans bound
    refine ⟨proper, fun stop member => ?_, fun directory member => ?_, covered along.start,
      fun stop member goal next => ?_⟩
    · rcases List.mem_append.mp member with before | now
      · exact along.entered stop before
      · rw [List.mem_singleton.mp now]
        exact ⟨reaches, names, rfl, below⟩
    · rcases List.mem_append.mp member with now | before
      · obtain ⟨name, inside, allowed, ⟨goal, route, isDirectory⟩, rfl⟩ :=
          (below.mem_onward_iff free).mp now
        refine ⟨names ++ [name], goal, rfl, ?_, below_concat inside route isDirectory,
          reaches.tail ⟨name, inside, allowed, route, isDirectory⟩⟩
        simpa using short
      · obtain ⟨names, place, same, short, rest⟩ := along.ahead directory
          (List.mem_cons_of_mem _ before)
        exact ⟨names, place, same, short.trans (by simp), rest⟩
    · rcases List.mem_append.mp member with before | now
      · exact covered (along.closed stop before goal next)
      · rw [List.mem_singleton.mp now] at next
        obtain ⟨name, inside, allowed, route, isDirectory⟩ := next
        refine .inr ⟨root.directoryText (names ++ [name]), List.mem_append_left _
          ((below.mem_onward_iff free).mpr
            ⟨name, inside, allowed, ⟨goal, route, isDirectory⟩, rfl⟩),
          (below_concat inside route isDirectory).lists free⟩

theorem steps (free : Open w root) (steps : Steps w followLinks s s')
    (along : Along w root followLinks top s) : Along w root followLinks top s' := by
  induction steps with
  | refl => exact along
  | tail _ step ih => exact ih.step free step

/-- At its end a tour has entered the directories that can be reached. -/
theorem mem_entered_iff {entered : List (Text × Location)}
    (along : Along w root followLinks top ⟨entered, []⟩) :
    place ∈ entered.map Prod.snd ↔ w.tree.Reaches followLinks top place := by
  have covers : ∀ {place}, Covers w ⟨entered, []⟩ place → place ∈ entered.map Prod.snd := by
    rintro place (inside | ⟨_, none, -⟩)
    · exact inside
    · cases none
  constructor
  · intro member
    obtain ⟨stop, inside, rfl⟩ := List.mem_map.mp member
    exact (along.entered stop inside).1
  · intro reaches
    induction reaches with
    | refl => exact covers along.start
    | tail _ next ih =>
      obtain ⟨stop, inside, rfl⟩ := List.mem_map.mp ih
      exact covers (along.closed stop inside _ next)

theorem initial (free : Open w root) (finds : w.find root.text = .ok ⟨top, some .directory⟩) :
    Along w root followLinks top ⟨[], [root.text]⟩ := by
  have same : root.below [] = root := by simp [Path.below]
  have below : Below w root [] top := by
    refine ⟨by simp, by simp, ?_, (entry_of_find finds).symm, Nat.zero_le _⟩
    rw [same, ← Path.ofText_text free.clean]
    exact leads_of_find finds
  refine ⟨proper_nil w, by simp, fun directory member => ?_,
    .inr ⟨root.text, List.mem_cons_self, below.lists free⟩, by simp⟩
  rw [List.mem_singleton.mp member]
  exact ⟨[], top, rfl, Nat.le_refl _, below, .refl⟩

variable {entered : List (Text × Location)}

/-- What is found in a directory that was entered, by the place of the directory. -/
theorem entries_at (free : Open w root) (along : Along w root followLinks top s) (pattern : Text)
    {stop : Text × Location} (member : stop ∈ s.entered) :
    ((filesAt w pattern stop).map w.entryOf).Nodup ∧
      (∀ entry, entry ∈ (filesAt w pattern stop).map w.entryOf ↔
        ∃ name, entry = some (stop.2, name) ∧ HoldsFile w.tree pattern stop.2 name) ∧
      ∀ path ∈ filesAt w pattern stop, path.root = root.root := by
  obtain ⟨directory, place⟩ := stop
  obtain ⟨-, names, same, below⟩ := along.entered _ member
  dsimp only at same below
  subst same
  obtain ⟨found, nodup, holds, files⟩ := below.filesAt_spec free pattern
  have entries : (filesAt w pattern (root.directoryText names, place)).map w.entryOf =
      found.map fun name => some (place, name) := by
    rw [files, List.map_map]
    exact List.map_congr_left fun name _ => below.entryOf_eq free name
  rw [entries]
  refine ⟨nodup.map fun name other same => ?_, fun entry => ?_, fun path inside => ?_⟩
  · injection same with same
    injection same
  · rw [List.mem_map]
    constructor
    · rintro ⟨name, inside, rfl⟩
      exact ⟨name, rfl, (holds name).mp inside⟩
    · rintro ⟨name, rfl, holds'⟩
      exact ⟨name, (holds name).mpr holds', rfl⟩
  · rw [files] at inside
    obtain ⟨name, -, rfl⟩ := List.mem_map.mp inside
    rfl

end Along

/-- The files that a walk should give: told by the places of directories and the names there, each
entry that matches and leads to a file in a directory that can be reached, once; in the order of
their paths. -/
structure Enumerates (w : World) (followLinks : Bool) (pattern : Text) (top : Location)
    (files : List Path) : Prop where
  once : (files.map w.entryOf).Nodup
  mem_iff : ∀ entry, entry ∈ files.map w.entryOf ↔ ∃ place name, entry = some (place, name) ∧
    w.tree.Reaches followLinks top place ∧ HoldsFile w.tree pattern place name
  increasing : files.Pairwise fun path next => path.le next = true ∧ next.le path = false

/-- Different paths that start alike are in strict order when they are in order. -/
theorem strictly_increasing {files : List Path} (kind : PathRoot) (nodup : files.Nodup)
    (sorted : files.Pairwise fun path next => path.le next = true)
    (roots : ∀ path ∈ files, path.root = kind) :
    files.Pairwise fun path next => path.le next = true ∧ next.le path = false := by
  refine (sorted.and nodup).imp_of_mem ?_
  rintro path next member member' ⟨before, different⟩
  refine ⟨before, Bool.eq_false_iff.mpr fun after => different ?_⟩
  exact Path.le_antisymm ((roots path member).trans (roots next member').symm) before after

theorem Along.enumerates {entered : List (Text × Location)} (free : Open w root)
    (along : Along w root followLinks top ⟨entered, []⟩) (pattern : Text) :
    Enumerates w followLinks pattern top
      ((entered.flatMap (filesAt w pattern)).mergeSort Path.le) := by
  have perm := List.mergeSort_perm (entered.flatMap (filesAt w pattern)) Path.le
  have nodup : ((entered.flatMap (filesAt w pattern)).map w.entryOf).Nodup := by
    rw [List.map_flatMap]
    refine List.nodup_flatMap.mpr ⟨fun stop member => (along.entries_at free pattern member).1, ?_⟩
    -- What is found in two directories differs because their places do.
    refine (List.pairwise_map.mp along.proper.nodup).imp_of_mem ?_
    intro stop other member member' different entry inside inside'
    obtain ⟨name, rfl, -⟩ := ((along.entries_at free pattern member).2.1 entry).mp inside
    obtain ⟨name', same, -⟩ := ((along.entries_at free pattern member').2.1 _).mp inside'
    injection same with same
    injection same with same
    exact different same
  have sorted := (perm.map w.entryOf).nodup_iff.mpr nodup
  refine ⟨sorted, fun entry => ?_, strictly_increasing root.root sorted.of_map
    (List.pairwise_mergeSort Path.le_trans Path.le_total _) fun path member => ?_⟩
  · rw [(perm.map w.entryOf).mem_iff, List.map_flatMap, List.mem_flatMap]
    constructor
    · rintro ⟨stop, member, inside⟩
      obtain ⟨name, rfl, holds⟩ := ((along.entries_at free pattern member).2.1 entry).mp inside
      exact ⟨stop.2, name, rfl, (along.entered stop member).1, holds⟩
    · rintro ⟨place, name, rfl, reaches, holds⟩
      obtain ⟨stop, member, rfl⟩ := List.mem_map.mp (along.mem_entered_iff.mpr reaches)
      exact ⟨stop, member, ((along.entries_at free pattern member).2.1 _).mpr ⟨name, rfl, holds⟩⟩
  · obtain ⟨stop, inside, found⟩ := List.mem_flatMap.mp (perm.mem_iff.mp member)
    exact (along.entries_at free pattern inside).2.2 path found

/-- In an open world a walk gives the files that it should, unless it comes to a name that is too
long; then it raises this failure. -/
theorem walkNative_enumerates (free : Open w root)
    (finds : w.find root.text = .ok ⟨top, some .directory⟩) (followLinks : Bool) (pattern : Text) :
    (walkNative followLinks root pattern).Ensures w
      (fun files v => w.Unmoved v ∧ Enumerates w followLinks pattern top files ∧
        ¬∃ place name, w.tree.Reaches followLinks top place ∧
          HoldsOverlong w.tree w.limits.name pattern place name)
      (fun failure v => w.Unmoved v ∧ (∃ path, failure = failed path .nameTooLong) ∧
        ∃ place name, w.tree.Reaches followLinks top place ∧
          HoldsOverlong w.tree w.limits.name pattern place name) := by
  have steady : Steady w := fun time time' path => by rw [free.unhindered, free.unhindered]
  have isDirectory : IsDirectory w root.text := ⟨free.written, top, finds⟩
  have start : Along w root followLinks top ⟨[], [root.text]⟩ := .initial free finds
  refine (walkNative_tours steady followLinks root pattern).mono ?_ ?_
  · rintro files v ⟨unmoved, -, entered, steps, rfl, asked⟩
    have along := start.steps free steps
    refine ⟨unmoved, along.enumerates free pattern, ?_⟩
    rintro ⟨place, name, reaches, holds⟩
    obtain ⟨⟨directory, place⟩, member, rfl⟩ := List.mem_map.mp (along.mem_entered_iff.mpr reaches)
    obtain ⟨-, names, same, below⟩ := along.entered _ member
    obtain ⟨path, asks, refused⟩ := below.not_canAsk_of_overlong free holds
    dsimp only at same
    rw [← same] at asks
    exact refused (asked _ member path asks)
  · rintro failure v ⟨unmoved, stopped⟩
    refine ⟨unmoved, ?_⟩
    obtain refuses | ⟨notDirectory, -⟩ | ⟨-, stops⟩ := stopped
    · exact absurd finds (refuses.not_found _)
    · exact absurd isDirectory notDirectory
    · cases stops with
      | unlisted errno comes cannot =>
        obtain ⟨names, place, rfl, -, below, -⟩ :=
          (start.steps free comes).ahead _ List.mem_cons_self
        exact absurd (below.lists free) (cannot place)
      | refused comes lists new asks refuses =>
        obtain ⟨names, place, rfl, -, below, reaches⟩ :=
          (start.steps free comes).ahead _ List.mem_cons_self
        cases lists.unique (below.lists free)
        obtain ⟨rfl, name, holds⟩ := below.overlong_of_refuses free asks refuses
        exact ⟨⟨_, rfl⟩, _, name, reaches, holds⟩

/-- There are only finitely many ways of a given length through the names of a list. -/
theorem finite_names (l : List EntryName) (n : Nat) :
    {names : Location | names.length ≤ n ∧ ∀ name ∈ names, name ∈ l}.Finite := by
  refine ((List.finite_length_le {name // name ∈ l} n).image (List.map Subtype.val)).subset ?_
  rintro names ⟨short, inside⟩
  lift names to List {name // name ∈ l} using inside
  exact ⟨names, by simpa using short, rfl⟩

/-- Limits that are high enough leave the world open to a walk. -/
theorem exists_open (sound : w.tree.Sound) (fits : w.tree.Fits w.limits.name) (clean : root.Clean)
    (written : isPath root.text = true)
    (unhindered : ∀ time path, w.faults time (.list path) = none) :
    ∃ bound, ∀ limits : PathLimits, limits.name = w.limits.name → bound ≤ limits.links →
      bound ≤ limits.path → Open { w with limits } root := by
  have each : ∀ᶠ bound in atTop, ∀ names ∈ {names : Location |
      names.length ≤ w.tree.entries.length + 2 ∧ ∀ name ∈ names, name ∈ w.tree.nameList},
      ∀ limits : PathLimits, limits.name = w.limits.name → bound ≤ limits.links →
        bound ≤ limits.path → Ample { w with limits } (root.directoryText names) ∧
          Ample { w with limits } (root.below names).text := by
    refine (eventually_all_finite (finite_names _ _)).mpr fun names _ => ?_
    refine ((eventually_ample fits (root.directoryText names)).and
      (eventually_ample fits (root.below names).text)).mono ?_
    exact fun bound both limits same links path =>
      ⟨both.1 limits same links path, both.2 limits same links path⟩
  obtain ⟨bound, ample⟩ := each.exists
  refine ⟨bound, fun limits same links path => ⟨sound, ?_, clean, written, unhindered,
    fun names short among => ample names ⟨short, among⟩ limits same links path⟩⟩
  rw [← same] at fits
  exact fits

/-- In a tree with links, whichever they are, a walk gives the entries that match and lead to files
in the directories that can be reached, each once and in the order of paths, if the limits on links
and paths are high enough. Only an entry that leads to a name that is too long stops it. -/
theorem walk_enters_once (sound : w.tree.Sound) (fits : w.tree.Fits w.limits.name)
    (clean : root.Clean) (written : isPath root.text = true)
    (unhindered : ∀ time path, w.faults time (.list path) = none) :
    ∃ bound, ∀ limits : PathLimits, limits.name = w.limits.name → bound ≤ limits.links →
      bound ≤ limits.path → ∀ top,
      World.find { w with limits } root.text = .ok ⟨top, some .directory⟩ →
      ∀ (followLinks : Bool) (pattern : Text),
        ((¬∃ place name, w.tree.Reaches followLinks top place ∧
            HoldsOverlong w.tree w.limits.name pattern place name) →
          ∃ files v, (walk (.native followLinks) root pattern).run { w with limits } = .ok files v ∧
            Enumerates { w with limits } followLinks pattern top files) ∧
        ((∃ place name, w.tree.Reaches followLinks top place ∧
            HoldsOverlong w.tree w.limits.name pattern place name) →
          ∃ path v, (walk (.native followLinks) root pattern).run { w with limits } =
            .error (failed path .nameTooLong) v) := by
  obtain ⟨bound, isOpen⟩ := exists_open sound fits clean written unhindered
  refine ⟨bound, fun limits same links path top finds followLinks pattern => ?_⟩
  have ensures := walkNative_enumerates (isOpen limits same links path) finds followLinks pattern
  have names : World.limits { w with limits } = limits := rfl
  rw [names, same] at ensures
  cases ends : (walkNative followLinks root pattern).run { w with limits } with
  | ok files v =>
    obtain ⟨-, enumerates, unobstructed⟩ := ensures.of_ok ends
    exact ⟨fun _ => ⟨files, v, ends, enumerates⟩,
      fun obstructed => absurd obstructed unobstructed⟩
  | error failure v =>
    obtain ⟨-, ⟨path, rfl⟩, obstructed⟩ := ensures.of_error ends
    exact ⟨fun unobstructed => absurd obstructed unobstructed, fun _ => ⟨path, v, ends⟩⟩

/-- A directory with a file and a link that leads back to the directory. -/
def looped : World where
  tree := ⟨[([[97]], .file [] 0o644), ([[108]], .link [46])]⟩

theorem present_looped {l : Location} (present : (looped.tree.get? l).isSome) :
    l = [] ∨ l = [[97]] ∨ l = [[108]] := by
  by_cases inner : l = []
  · exact .inl inner
  · obtain ⟨e, entry⟩ := Option.isSome_iff_exists.mp present
    have member := mem_entries_of_get? inner entry
    simp only [looped, List.mem_cons, Prod.mk.injEq, List.not_mem_nil, or_false] at member
    exact .inr (member.imp And.left And.left)

theorem sound_looped : looped.tree.Sound ∧ looped.tree.Fits looped.limits.name := by
  refine ⟨⟨closed_of_entries (by decide), by unfold Distinct; decide, ?_⟩, by decide, ?_⟩
  · intro l present name member
    obtain rfl | rfl | rfl := present_looped present
    · cases member
    · obtain rfl := List.mem_singleton.mp member
      exact ⟨by decide, by decide, by decide, by decide, by decide⟩
    · obtain rfl := List.mem_singleton.mp member
      exact ⟨by decide, by decide, by decide, by decide, by decide⟩
  · intro place name present
    obtain none | same | same := present_looped present
    · simp at none
    all_goals
      have member : name ∈ place ++ [name] := by simp
      rw [same] at member
      rw [List.mem_singleton.mp member]
      decide

theorem reaches_looped {place : Location} (reaches : looped.tree.Reaches true [] place) :
    place = [] := by
  induction reaches with
  | refl => rfl
  | tail _ next _ =>
    obtain ⟨-, -, -, -, isDirectory⟩ := next
    obtain rfl | rfl | rfl := present_looped (by rw [isDirectory]; rfl)
    · rfl
    · cases isDirectory
    · cases isDirectory

theorem holdsFile_looped {name : EntryName} :
    HoldsFile looped.tree "*" [] name ↔ name = [97] := by
  have back : Route looped.tree [] [[108]] [] :=
    .link rfl ⟨by decide, by decide⟩ rfl (.dot rfl (.stop []))
  constructor
  · rintro ⟨inside, -, goal, data, mode, route, file⟩
    obtain none | same | same := present_looped (mem_namesIn.mp inside)
    · cases none
    · exact List.singleton_inj.mp same
    · obtain rfl := List.singleton_inj.mp same
      cases route.unique back
      cases file
  · rintro rfl
    exact ⟨mem_namesIn.mpr rfl, by decide, [[97]], [], 0o644,
      .enter rfl ⟨by decide, by decide⟩ (fun target link => by cases link) (.stop _), rfl⟩

/-- A walk finds the file next to the link once. -/
theorem walk_enters_once_looped : ∃ limits files v,
    (walk (.native true) (.ofText ".") "*").run { looped with limits } = .ok files v ∧
      files.map (World.entryOf { looped with limits }) = [some ([], [97])] := by
  obtain ⟨sound, fits⟩ := sound_looped
  obtain ⟨bound, walks⟩ := walk_enters_once sound fits (Path.clean_ofText ".") (by decide)
    (fun _ _ => rfl)
  have unobstructed : ¬∃ place name, looped.tree.Reaches true [] place ∧
      HoldsOverlong looped.tree looped.limits.name "*" place name := by
    rintro ⟨place, name, -, inside, -, overlong⟩
    refine not_overlong_of_targets (fun place target link => ?_) (fun name member => ?_) overlong
    · obtain rfl | rfl | rfl := present_looped (by rw [link]; rfl)
      · cases link
      · cases link
      · cases link
        decide
    · rw [List.mem_singleton.mp member]
      exact fits.names place _ (mem_namesIn.mp inside)
  have finds : World.find { looped with limits := ⟨bound + 1, 255, bound + 1⟩ } "." =
      .ok ⟨[], some .directory⟩ := by
    refine (find_eq_followLinks (by decide) ?_ true).trans ?_
    · exact Nat.le_add_left 1 bound
    · exact (followLinks_dot rfl (show 1 ≤ 255 by decide)).trans followLinks_nil
  obtain ⟨files, v, ends, enumerates⟩ := (walks ⟨bound + 1, 255, bound + 1⟩ rfl (Nat.le_succ _)
    (Nat.le_succ _) [] finds true "*").1 unobstructed
  refine ⟨_, files, v, ends, List.perm_singleton.mp ?_⟩
  refine (List.perm_ext_iff_of_nodup enumerates.once (List.nodup_singleton _)).mpr fun entry => ?_
  rw [enumerates.mem_iff, List.mem_singleton]
  constructor
  · rintro ⟨place, name, rfl, reaches, holds⟩
    obtain rfl := reaches_looped reaches
    rw [holdsFile_looped.mp holds]
  · rintro rfl
    exact ⟨[], [97], rfl, .refl, holdsFile_looped.mpr rfl⟩

/-- A directory with a link to a name that is longer than names can be. -/
def dangling : World where
  tree := ⟨[([Encoding.nameBytes "l.tcl"], .link (List.replicate 256 97))]⟩

/-- The link leads to no file, and still it is not passed by. -/
theorem dangling_link_stops_walk : (¬∃ name, HoldsFile dangling.tree "*.tcl" [] name) ∧
    ∃ v, (walk (.native true) (.ofText ".") "*.tcl").run dangling =
      .error (failed "l.tcl" .nameTooLong) v := by
  constructor
  · rintro ⟨name, -, -, goal, data, mode, -, file⟩
    by_cases inner : goal = []
    · subst inner
      cases file
    · have member := mem_entries_of_get? inner file
      cases congrArg Prod.snd (List.mem_singleton.mp member)
  · have told : (walk (.native true) (.ofText ".") "*.tcl").failure? dangling =
        some (failed "l.tcl" .nameTooLong) := by
      decide +kernel
    exact Action.run_of_failure? told

end Walker

end Renewal
