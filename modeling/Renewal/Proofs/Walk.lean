import Renewal.Proofs.PathOrder
import Renewal.Proofs.PlainPath
import Renewal.Proofs.TemporaryFile

/-! # What a walk finds in a tree without links

A walk that ends has listed every directory below its root and gives exactly the files there whose
names match, each by one path (`Walker.walkNative_ensures`). It does end if no operation is made to
fail and every path that it asks for can be followed (`Walker.Smooth`). A walk changes nothing.
-/

namespace Renewal

namespace Tree

/-- What every file tree is: each entry stands in a directory, alone at its location, and under a
name that can be one. -/
structure Sound (t : Tree) : Prop where
  closed : t.Closed
  distinct : t.Distinct
  names : ∀ place, (t.get? place).isSome → ∀ name ∈ place, IsEntryName name

theorem Sound.below {t : Tree} (sound : t.Sound) {top names : Location}
    (present : (t.get? (top ++ names)).isSome) : ∀ name ∈ names, IsEntryName name :=
  fun name member => sound.names _ present name (List.mem_append_right _ member)

end Tree

namespace World

variable {w : World} {place : Location} {name : EntryName}

theorem mem_listed : name ∈ w.namesIn place ↔ name ∈ w.tree.namesIn place :=
  (w.listing.perm place _).mem_iff

/-- The directories among the names in a directory. -/
theorem mem_filter_isDirectory :
    name ∈ (w.namesIn place).filter (fun name => w.tree.isDirectory (place ++ [name])) ↔
      w.tree.get? (place ++ [name]) = some .directory := by
  rw [List.mem_filter, mem_listed, Tree.mem_namesIn, Tree.isDirectory_iff]
  exact ⟨And.right, fun directory => ⟨by rw [directory]; rfl, directory⟩⟩

theorem nodup_listed (distinct : w.tree.Distinct) (place : Location) :
    (w.namesIn place).Nodup :=
  (w.listing.perm place _).nodup_iff.mpr (distinct.namesIn place)

end World

namespace FileSystem

open Renewal.Tree World

variable {w v : World}

/-- Whether a path leads to a file. -/
def leadsToFile (w : World) (path : Text) : Bool :=
  isPath path &&
    match w.find path with
    | .ok ⟨_, some (.file _ _)⟩ => true
    | _ => false

theorem leadsToFile_iff {path : Text} : leadsToFile w path = true ↔
    isPath path = true ∧
      ∃ place data mode, w.find path = .ok ⟨place, some (.file data mode)⟩ := by
  unfold leadsToFile
  rw [Bool.and_eq_true]
  refine and_congr_right fun _ => ?_
  split
  · rename_i place data mode finds
    simp [finds]
  · rename_i other
    simp only [Bool.false_eq_true, false_iff, not_exists]
    exact fun place data mode finds => other place data mode finds

/-- The entry at a path can be asked for. -/
def CanAsk (w : World) (path : Text) : Prop :=
  isPath path = false ∨ ∀ errno, w.find path = .error errno → meansAbsent errno = true

/-- Asking for the entry at a path raises a failure. -/
def Refuses (w : World) (path : Text) (failure : Failure) : Prop :=
  ∃ errno, failure = failed path errno ∧ isPath path = true ∧
    w.find path = .error errno ∧ meansAbsent errno = false

theorem Refuses.not_found {path : Text} {failure : Failure} (refuses : Refuses w path failure)
    (found : Found) : w.find path ≠ .ok found := by
  obtain ⟨errno, -, -, stuck, -⟩ := refuses
  simp [stuck]

theorem entry?_ensures (w : World) (path : Text) :
    ( entry? path).Ensures w
      (fun answer v => v = w ∧ CanAsk w path ∧
        (∀ e, answer = some e ↔ isPath path = true ∧
          ∃ place, w.find path = .ok ⟨place, some e⟩))
      (fun failure v => v = w ∧ Refuses w path failure) := by
  unfold entry?
  cases written : isPath path with
  | false => exact ⟨rfl, .inl written, by simp⟩
  | true =>
    rw [Bool.not_true, if_neg Bool.false_ne_true, Action.ensures_bind, Action.ensures_get]
    cases finds : w.find path with
    | ok found =>
      obtain ⟨place, entry⟩ := found
      simp only [Action.ensures_pure, Except.ok.injEq, Found.mk.injEq, true_and]
      exact ⟨.inr (by simp [finds]), fun e => by simp⟩
    | error errno =>
      simp only [Action.ensures_ite, Action.ensures_pure, Action.ensures_throw]
      refine ⟨fun absent => ⟨trivial, .inr ?_, by simp⟩, fun tells => ⟨trivial, errno, rfl,
        written, finds, by simpa using tells⟩⟩
      intro other same
      cases finds.symm.trans same
      exact absent

theorem isFile_ensures (w : World) (path : Text) :
    (isFile path).Ensures w
      (fun answer v => v = w ∧ CanAsk w path ∧ answer = leadsToFile w path)
      (fun failure v => v = w ∧ Refuses w path failure) := by
  unfold isFile
  rw [Action.ensures_bind]
  refine (entry?_ensures w path).mono ?_ fun _ _ raised => raised
  rintro answer _ ⟨rfl, asked, tells⟩
  split
  · rename_i data mode
    obtain ⟨written, place, finds⟩ := (tells _).mp rfl
    exact ⟨rfl, asked, (leadsToFile_iff.mpr ⟨written, place, data, mode, finds⟩).symm⟩
  · rename_i other
    refine ⟨rfl, asked, (Bool.eq_false_iff.mpr fun leads => ?_).symm⟩
    obtain ⟨written, place, data, mode, finds⟩ := leadsToFile_iff.mp leads
    exact other data mode ((tells _).mpr ⟨written, place, finds⟩)

theorem isDirectory_ensures (w : World) (path : Text) :
    (isDirectory path).Ensures w
      (fun answer v => v = w ∧ (answer = true ↔ isPath path = true ∧
        ∃ place, w.find path = .ok ⟨place, some .directory⟩))
      (fun failure v => v = w ∧ Refuses w path failure) := by
  unfold isDirectory
  rw [Action.ensures_bind]
  refine (entry?_ensures w path).mono ?_ fun _ _ raised => raised
  rintro answer _ ⟨rfl, -, tells⟩
  exact ⟨rfl, by rw [beq_iff_eq, tells]⟩

/-- Listing a directory gives its names, unless it is made to fail or the path leads to no
directory. -/
theorem list_ensures (unmoved : w.Unmoved v) (path : Text) :
    (list path).Ensures v
      (fun result u => w.Unmoved u ∧
        match result with
        | .ok names => w.faults v.clock (.list path) = none ∧
          ∃ place, w.find path = .ok ⟨place, some .directory⟩ ∧ names = w.namesIn place
        | .error _ => w.faults v.clock (.list path) ≠ none ∨
          ∀ place, w.find path ≠ .ok ⟨place, some .directory⟩)
      (fun _ _ => False) := by
  unfold list
  rw [Action.ensures_bind]
  unfold Action.fault?
  rw [Action.ensures_modifyGet]
  dsimp only
  rw [← faults_of_setting unmoved.setting]
  cases fault : v.faults v.clock (.list path) with
  | some errno => exact ⟨⟨unmoved.tree, unmoved.setting, unmoved.past⟩, .inl (by simp)⟩
  | none =>
    have later : w.Unmoved { v with clock := v.clock + 1 } :=
      ⟨unmoved.tree, unmoved.setting, unmoved.past⟩
    rw [Action.ensures_bind, Action.ensures_get]
    rw [find_of_unmoved later]
    cases finds : w.find path with
    | error errno => exact ⟨later, .inr (by simp)⟩
    | ok found =>
      obtain ⟨place, entry⟩ := found
      cases entry with
      | none => exact ⟨later, .inr (by simp)⟩
      | some e =>
        cases e with
        | directory => exact ⟨later, rfl, place, rfl, namesIn_of_unmoved later place⟩
        | file data mode | link target | pipe => exact ⟨later, .inr (by simp)⟩

end FileSystem

namespace Walker

open Renewal.Tree World FileSystem

variable {w v : World} {root : Path} {pattern : Text}

/-- The names, below a root, of the files that a walk gives, from a directory on. -/
def filesBelow (w : World) (root : Path) (pattern : Text) : (depth : Nat) → Location → List Location
  | 0, _ => []
  | depth + 1, names =>
    let place := w.placeOf root ++ names
    let (directories, others) := (w.namesIn place).partition fun name =>
      w.tree.isDirectory (place ++ [name])
    let files := others.filter fun name => globMatches pattern (Utf8.decode name) &&
      leadsToFile w (root.below (names ++ [name])).text
    files.map (names ++ [·]) ++
      directories.flatMap fun name => filesBelow w root pattern depth (names ++ [name])

/-- The directories below a root can be reached by the paths that a walk takes. -/
structure Walkable (w : World) (root : Path) : Prop where
  written : isPath root.text = true
  start : ∃ place, w.find root.text = .ok ⟨place, some .directory⟩
  lists : ∀ names, w.tree.get? (w.placeOf root ++ names) = some .directory →
    ∃ found, w.find (root.directoryText names) = .ok found

/-- Nothing can stop a walk: no operation is made to fail, and the paths that are asked for can be
followed. -/
structure Smooth (w : World) (root : Path) (pattern : Text) : Prop where
  faultless : w.faults = Faults.none
  walkable : Walkable w root
  asks : ∀ names name, (w.tree.get? (w.placeOf root ++ names ++ [name])).isSome →
    w.tree.get? (w.placeOf root ++ names ++ [name]) ≠ some .directory →
    globMatches pattern (Utf8.decode name) = true →
    ∃ found, w.find (root.below (names ++ [name])).text = .ok found

/-- Directories are reached by the same paths as long as nothing comes or goes on the way. -/
theorem Walkable.transfer (walkable : Walkable w root) (directory : v.directory = w.directory)
    (limits : v.limits = w.limits) (same : SamePassages w.tree v.tree) : Walkable v root := by
  have stands : v.placeOf root = w.placeOf root := placeOf_congr directory root
  refine ⟨walkable.written, ?_, fun names listed => ?_⟩
  · obtain ⟨place, finds⟩ := walkable.start
    have onward := find_of_passages directory limits same finds
    have there := (same.directory place).mpr (entry_of_find finds).symm
    exact ⟨place, by rw [onward, there]⟩
  · rw [stands] at listed
    obtain ⟨found, finds⟩ := walkable.lists names ((same.directory _).mp listed)
    exact ⟨_, find_of_passages directory limits same finds⟩

theorem child_below (clean : root.Clean) {names : Location} {name : EntryName}
    (valid : ∀ part ∈ names ++ [name], IsEntryName part) :
    (Path.ofText (root.directoryText names)).child (Utf8.decode name) =
      root.below (names ++ [name]) := by
  have part := (valid name (by simp)).isPart
  rw [Path.ofText_directoryText clean fun part member => valid part (by simp [member]),
    Path.child, Path.rootOf_eq_relative_iff.mpr (Path.head?_ne_of_isPart part),
    Path.namesOf_of_isPart part]
  simp [Path.below]

/-- The files of a directory are told by asking for each entry whose name matches. -/
theorem filesIn_ensures (unmoved : w.Unmoved v) (directory : Text) (names : List Text) :
    (filesIn pattern directory names).Ensures v
      (fun files u => w.Unmoved u ∧
        files = (names.filter fun name => globMatches pattern name &&
          leadsToFile w ((Path.ofText directory).child name).text).map
            (Path.ofText directory).child ∧
        ∀ name ∈ names, globMatches pattern name = true →
          CanAsk w ((Path.ofText directory).child name).text)
      (fun failure u => w.Unmoved u ∧ ∃ name ∈ names, globMatches pattern name = true ∧
        Refuses w ((Path.ofText directory).child name).text failure) := by
  induction names generalizing v with
  | nil => exact ⟨unmoved, rfl, by simp⟩
  | cons name rest ih =>
    have rests : ∀ {v} (here : Bool), w.Unmoved v →
        here = (globMatches pattern name &&
          leadsToFile w ((Path.ofText directory).child name).text) →
        (globMatches pattern name = true → CanAsk w ((Path.ofText directory).child name).text) →
        (do
          let more ← filesIn pattern directory rest
          return if here then (Path.ofText directory).child name :: more else more :
            Action (List Path)).Ensures v
        (fun files u => w.Unmoved u ∧
          files = ((name :: rest).filter fun name => globMatches pattern name &&
            leadsToFile w ((Path.ofText directory).child name).text).map
              (Path.ofText directory).child ∧
          ∀ other ∈ name :: rest, globMatches pattern other = true →
            CanAsk w ((Path.ofText directory).child other).text)
        (fun failure u => w.Unmoved u ∧ ∃ other ∈ name :: rest, globMatches pattern other = true ∧
          Refuses w ((Path.ofText directory).child other).text failure) := by
      intro v here unmoved same asked
      rw [Action.ensures_bind]
      refine (ih unmoved).mono ?_ ?_
      · rintro more u ⟨unmoved, rfl, others⟩
        rw [Action.ensures_pure, same, List.filter_cons]
        refine ⟨unmoved, ?_, fun other member fits => ?_⟩
        · split <;> simp
        · rcases List.mem_cons.mp member with rfl | later
          · exact asked fits
          · exact others other later fits
      · rintro _ u ⟨unmoved, name, member, stuck⟩
        exact ⟨unmoved, name, List.mem_cons_of_mem _ member, stuck⟩
    rw [filesIn]
    by_cases fits : globMatches pattern name = true
    · rw [if_pos fits, Action.ensures_bind]
      refine (isFile_ensures v _).mono ?_ ?_
      · rintro here _ ⟨rfl, asked, same⟩
        refine rests here unmoved ?_ fun _ => ?_
        · rw [same, fits, Bool.true_and, leadsToFile, leadsToFile, find_of_unmoved unmoved]
        · rwa [CanAsk, find_of_unmoved unmoved] at asked
      · rintro _ _ ⟨rfl, refuses⟩
        rw [Refuses, find_of_unmoved unmoved] at refuses
        exact ⟨unmoved, name, List.mem_cons_self, fits, refuses⟩
    · rw [if_neg fits, Action.ensures_bind, Action.ensures_pure]
      exact rests false unmoved (by simp [fits]) fun matches' => absurd matches' fits

theorem filesIn_below_ensures (clean : root.Clean) (unmoved : w.Unmoved v) {names : Location}
    {others : List EntryName}
    (valid : ∀ name ∈ others, ∀ part ∈ names ++ [name], IsEntryName part) :
    (filesIn pattern (root.directoryText names) (others.map Utf8.decode)).Ensures v
      (fun files u => w.Unmoved u ∧
        files = (others.filter fun name => globMatches pattern (Utf8.decode name) &&
          leadsToFile w (root.below (names ++ [name])).text).map
            (fun name => root.below (names ++ [name])) ∧
        ∀ name ∈ others, globMatches pattern (Utf8.decode name) = true →
          CanAsk w (root.below (names ++ [name])).text)
      (fun _ u => w.Unmoved u ∧ ∃ name ∈ others, globMatches pattern (Utf8.decode name) = true ∧
        ∀ found, w.find (root.below (names ++ [name])).text ≠ .ok found) := by
  have child : ∀ name ∈ others, (Path.ofText (root.directoryText names)).child (Utf8.decode name) =
      root.below (names ++ [name]) := fun name member => child_below clean (valid name member)
  refine (filesIn_ensures unmoved _ _).mono ?_ ?_
  · rintro files u ⟨unmoved, rfl, asked⟩
    refine ⟨unmoved, ?_, fun name member fits => ?_⟩
    · rw [List.filter_map, List.map_map, List.filter_congr fun name member => by
        rw [Function.comp_apply, child name member]]
      exact List.map_congr_left fun name member => child name (List.mem_of_mem_filter member)
    · rw [← child name member]
      exact asked _ (List.mem_map_of_mem member) fits
  · rintro _ u ⟨unmoved, _, member, fits, refuses⟩
    obtain ⟨name, inside, rfl⟩ := List.mem_map.mp member
    rw [child name inside] at refuses
    exact ⟨unmoved, name, inside, fits, refuses.not_found⟩

theorem countsAsDirectory_linkFree (free : w.tree.LinkFree) (place : Location) (name : EntryName)
    (path : Text) :
    countsAsDirectory w place name path = w.tree.isDirectory (place ++ [name]) := by
  unfold countsAsDirectory Tree.isDirectory
  cases entry : w.tree.get? (place ++ [name]) with
  | none => rfl
  | some e =>
    cases e with
    | link target => exact absurd entry (free _ target)
    | directory | pipe => rfl
    | file data mode => rfl

theorem isLink_linkFree (free : w.tree.LinkFree) (path : Text) : isLink w path = false := by
  unfold isLink
  split
  · rename_i place target finds
    exact absurd (entry_of_find finds).symm (free _ target)
  · rfl

/-- How far a walk has come in a directory, of which some directories have been done. -/
structure Halfway (w : World) (root : Path) (pattern : Text) (depth : Nat) (names : Location)
    (files : List Path) (entered : List Location) (done : List EntryName) (progress : Progress) :
    Prop where
  files : progress.files = files ++
    (done.flatMap fun name => filesBelow w root pattern depth (names ++ [name])).map root.below
  entered : ∀ l ∈ progress.entered, l ∈ entered ∨ l = w.placeOf root ++ names ∨
    ∃ name ∈ done, w.placeOf root ++ names ++ [name] <+: l
  listed : ∀ name ∈ done, ∀ below, below.length < depth →
    w.tree.get? (w.placeOf root ++ (names ++ [name] ++ below)) = some .directory →
    ∃ found, w.find (root.directoryText (names ++ [name] ++ below)) = .ok found
  asked : ∀ name ∈ done, ∀ below last, below.length < depth →
    (w.tree.get? (w.placeOf root ++ (names ++ [name] ++ below ++ [last]))).isSome →
    w.tree.get? (w.placeOf root ++ (names ++ [name] ++ below ++ [last])) ≠ some .directory →
    globMatches pattern (Utf8.decode last) = true →
    CanAsk w (root.below (names ++ [name] ++ below ++ [last])).text

/-- A walk of a directory finds the files below it, or something stops it. -/
def Visits (w : World) (root : Path) (followLinks : Bool) (pattern : Text) (depth : Nat) : Prop :=
  ∀ (progress : Progress) (names : Location) (v : World), w.Unmoved v →
    w.tree.get? (w.placeOf root ++ names) = some .directory →
    (∀ l ∈ progress.entered, ¬w.placeOf root ++ names <+: l) →
    (visit followLinks pattern depth progress (root.directoryText names)).Ensures v
      (fun after u => w.Unmoved u ∧
        after.files = progress.files ++ (filesBelow w root pattern depth names).map root.below ∧
        (∀ l ∈ after.entered, l ∈ progress.entered ∨ w.placeOf root ++ names <+: l) ∧
        (∀ below, below.length < depth →
          w.tree.get? (w.placeOf root ++ (names ++ below)) = some .directory →
          ∃ found, w.find (root.directoryText (names ++ below)) = .ok found) ∧
        ∀ below last, below.length < depth →
          (w.tree.get? (w.placeOf root ++ (names ++ below ++ [last]))).isSome →
          w.tree.get? (w.placeOf root ++ (names ++ below ++ [last])) ≠ some .directory →
          globMatches pattern (Utf8.decode last) = true →
          CanAsk w (root.below (names ++ below ++ [last])).text)
      (fun _ u => w.Unmoved u ∧ ¬Smooth w root pattern)

theorem visitAll_ensures {followLinks : Bool} {depth : Nat}
    (visits : Visits w root followLinks pattern depth) {names : Location}
    {directories : List EntryName} (nodup : directories.Nodup)
    (each : ∀ name ∈ directories,
      w.tree.get? (w.placeOf root ++ (names ++ [name])) = some .directory)
    {entered : List Location} (fresh : ∀ l ∈ entered, ¬w.placeOf root ++ names <+: l)
    (unmoved : w.Unmoved v) (files : List Path) :
    (directories.foldlM
        (fun progress name => visit followLinks pattern depth progress
          (root.directoryText (names ++ [name])))
        { files, entered := entered ++ [w.placeOf root ++ names] }).Ensures v
      (fun after u => w.Unmoved u ∧
        Halfway w root pattern depth names files entered directories after)
      (fun _ u => w.Unmoved u ∧ ¬Smooth w root pattern) := by
  -- The directories are cut into those that have been done and those that are left.
  refine (Action.ensures_foldlM
    (fun rest sum u => ∃ done, directories = done ++ rest ∧ w.Unmoved u ∧
      Halfway w root pattern depth names files entered done sum) ?_
    ⟨[], rfl, unmoved, by simp, ?_, by simp, by simp⟩).mono ?_ fun _ _ raised => raised
  · rintro name rest sum u ⟨done, cut, unmoved, halfway⟩
    have later : ∀ other ∈ done, other ≠ name := by
      rintro other member rfl
      rw [cut] at nodup
      exact (List.nodup_append.mp nodup).2.2 other member other (by simp) rfl
    have notEntered : ∀ l ∈ sum.entered, ¬w.placeOf root ++ (names ++ [name]) <+: l := by
      intro l member under
      rw [← List.append_assoc] at under
      rcases halfway.entered l member with before | rfl | ⟨other, isDone, below⟩
      · exact fresh l before ((List.prefix_append _ _).trans under)
      · have longer := under.length_le
        rw [List.length_append, List.length_singleton] at longer
        omega
      · have same := (List.prefix_of_prefix_length_le below under (by simp)).eq_of_length (by simp)
        have := (List.append_inj' same rfl).2
        exact later other isDone (List.singleton_inj.mp this)
    refine (visits sum (names ++ [name]) u unmoved (each name (by simp [cut]))
      notEntered).mono ?_ fun _ _ raised => raised
    rintro after u ⟨unmoved, found, entered', listed, asked⟩
    refine ⟨done ++ [name], by simp [cut], unmoved, ?_, ?_, ?_, ?_⟩
    · simp [found, halfway.files]
    · intro l member
      rcases entered' l member with before | below
      · rcases halfway.entered l before with before | here | ⟨other, isDone, below⟩
        · exact .inl before
        · exact .inr (.inl here)
        · exact .inr (.inr ⟨other, by simp [isDone], below⟩)
      · exact .inr (.inr ⟨name, by simp, by simpa using below⟩)
    · intro other member below shallow directory
      rcases List.mem_append.mp member with isDone | same
      · exact halfway.listed other isDone below shallow directory
      · obtain rfl := List.mem_singleton.mp same
        exact listed below shallow directory
    · intro other member below last shallow present plain fits
      rcases List.mem_append.mp member with isDone | same
      · exact halfway.asked other isDone below last shallow present plain fits
      · obtain rfl := List.mem_singleton.mp same
        exact asked below last shallow present plain fits
  · intro l member
    simpa using member
  · rintro after u ⟨done, cut, unmoved, halfway⟩
    rw [List.append_nil] at cut
    rw [cut]
    exact ⟨unmoved, halfway⟩

theorem filesBelow_succ (w : World) (root : Path) (pattern : Text) (depth : Nat)
    (names : Location) :
    filesBelow w root pattern (depth + 1) names =
      let place := w.placeOf root ++ names
      ((((w.namesIn place).filter fun name => !w.tree.isDirectory (place ++ [name])).filter
        fun name => globMatches pattern (Utf8.decode name) &&
          leadsToFile w (root.below (names ++ [name])).text).map (names ++ [·])) ++
      ((w.namesIn place).filter fun name => w.tree.isDirectory (place ++ [name])).flatMap
        fun name => filesBelow w root pattern depth (names ++ [name]) := by
  rw [filesBelow]
  simp only [List.partition_eq_filter_filter]
  rfl

section Done

variable {depth : Nat} {names : Location} {files : List Path} {entered : List Location}
  {progress : Progress}

/-- After all directories in a directory, those below it have been listed. -/
theorem Halfway.lists (closed : w.tree.Closed)
    (halfway : Halfway w root pattern depth names files entered
      ((w.namesIn (w.placeOf root ++ names)).filter fun name =>
        w.tree.isDirectory (w.placeOf root ++ names ++ [name])) progress)
    (here : ∃ found, w.find (root.directoryText names) = .ok found) {below : Location}
    (shallow : below.length < depth + 1)
    (directory : w.tree.get? (w.placeOf root ++ (names ++ below)) = some .directory) :
    ∃ found, w.find (root.directoryText (names ++ below)) = .ok found := by
  cases below with
  | nil => simpa using here
  | cons name below =>
    have around : w.tree.get? (w.placeOf root ++ names ++ [name]) = some .directory :=
      closed.directory_above below (by simpa using directory)
    have listed := halfway.listed name (mem_filter_isDirectory.mpr around) below
      (by simpa using shallow)
    simpa using listed (by simpa using directory)

/-- After the files and all directories in a directory, every entry below it that matches has been
asked for. -/
theorem Halfway.asks (closed : w.tree.Closed)
    (halfway : Halfway w root pattern depth names files entered
      ((w.namesIn (w.placeOf root ++ names)).filter fun name =>
        w.tree.isDirectory (w.placeOf root ++ names ++ [name])) progress)
    (here : ∀ name, (w.tree.get? (w.placeOf root ++ names ++ [name])).isSome →
      w.tree.get? (w.placeOf root ++ names ++ [name]) ≠ some .directory →
      globMatches pattern (Utf8.decode name) = true → CanAsk w (root.below (names ++ [name])).text)
    {below : Location} {last : EntryName} (shallow : below.length < depth + 1)
    (present : (w.tree.get? (w.placeOf root ++ (names ++ below ++ [last]))).isSome)
    (plain : w.tree.get? (w.placeOf root ++ (names ++ below ++ [last])) ≠ some .directory)
    (fits : globMatches pattern (Utf8.decode last) = true) :
    CanAsk w (root.below (names ++ below ++ [last])).text := by
  cases below with
  | nil =>
    rw [List.append_nil] at present plain ⊢
    rw [← List.append_assoc] at present plain
    exact here last present plain fits
  | cons name below =>
    have around : w.tree.get? (w.placeOf root ++ names ++ [name]) = some .directory :=
      closed.directory_of_below (show below ++ [last] ≠ [] by simp) (by simpa using present)
    have asked := halfway.asked name (mem_filter_isDirectory.mpr around) below last
      (by simpa using shallow)
    simpa using asked (by simpa using present) (by simpa using plain) fits

end Done

theorem visit_ensures (sound : w.tree.Sound) (free : w.tree.LinkFree) (clean : root.Clean)
    (followLinks : Bool) (pattern : Text) (depth : Nat) :
    Visits w root followLinks pattern depth := by
  induction depth with
  | zero =>
    intro progress names v unmoved directory fresh
    exact ⟨unmoved, by simp [filesBelow], fun l member => .inl member, by simp, by simp⟩
  | succ depth ih =>
    intro progress names v unmoved directory fresh
    have valid : ∀ name ∈ names, IsEntryName name := sound.below (by rw [directory]; rfl)
    rw [visit, Action.ensures_bind]
    refine (list_ensures unmoved _).mono ?_ fun _ _ impossible => impossible.elim
    rintro result u ⟨unmoved, listed⟩
    cases result with
    | error errno =>
      refine ⟨unmoved, fun smooth => ?_⟩
      rcases listed with fault | stuck
      · exact fault (by rw [smooth.faultless]; rfl)
      · obtain ⟨found, finds⟩ := smooth.walkable.lists names directory
        have same := find_directoryText free clean valid finds
        rw [directory] at same
        exact stuck _ (same ▸ finds)
    | ok entries =>
      obtain ⟨-, place, finds, rfl⟩ := listed
      obtain rfl : place = w.placeOf root ++ names := by
        have same := find_directoryText free clean valid finds
        injection same
      have notEntered : ¬progress.entered.contains (w.placeOf root ++ names) = true := by
        intro member
        exact fresh _ (List.contains_iff_mem.mp member) List.prefix_rfl
      have freeNow : u.tree.LinkFree := by
        rw [unmoved.tree]
        exact free
      dsimp only
      rw [Action.ensures_bind, Action.ensures_get, find_of_unmoved unmoved, finds]
      dsimp only
      rw [if_neg notEntered]
      simp only [countsAsDirectory_linkFree freeNow, isLink_linkFree freeNow, unmoved.tree,
        List.partition_eq_filter_filter, Bool.not_false, Bool.or_true, List.filter_true,
        ← Path.directoryText_concat, List.foldlM_map]
      have inside : ∀ name ∈ w.namesIn (w.placeOf root ++ names),
          (w.tree.get? (w.placeOf root ++ (names ++ [name]))).isSome := by
        intro name member
        rw [← List.append_assoc]
        exact mem_namesIn.mp (mem_listed.mp member)
      rw [Action.ensures_bind]
      refine (filesIn_below_ensures clean unmoved fun name member =>
        sound.below (inside name (List.mem_of_mem_filter member))).mono ?_ ?_
      · rintro files u ⟨unmoved, rfl, asked⟩
        refine (visitAll_ensures ih ((nodup_listed sound.distinct _).filter _) ?_ fresh
          unmoved _).mono ?_ fun _ _ raised => raised
        · intro name member
          rw [← List.append_assoc]
          exact mem_filter_isDirectory.mp member
        · rintro after u ⟨unmoved, halfway⟩
          refine ⟨unmoved, ?_, ?_, fun below => halfway.lists sound.closed ⟨_, finds⟩, ?_⟩
          · rw [halfway.files, filesBelow_succ]
            simp [Function.comp_def]
          · intro l member
            rcases halfway.entered l member with before | rfl | ⟨name, -, below⟩
            · exact .inl before
            · exact .inr List.prefix_rfl
            · exact .inr ((List.prefix_append _ _).trans below)
          · refine fun below last => halfway.asks sound.closed fun name present plain => ?_
            refine asked name (List.mem_filter.mpr ⟨mem_listed.mpr (mem_namesIn.mpr present), ?_⟩)
            simpa [← Bool.not_eq_true, isDirectory_iff] using plain
      · rintro _ u ⟨unmoved, name, member, fits, stuck⟩
        refine ⟨unmoved, fun smooth => ?_⟩
        obtain ⟨present, other⟩ := List.mem_filter.mp member
        obtain ⟨found, finds⟩ := smooth.asks names name (mem_namesIn.mp (mem_listed.mp present))
          (fun directory => by
            rw [Function.comp_apply, isDirectory_iff.mpr directory] at other
            cases other) fits
        exact stuck found finds

theorem mem_filesBelow (closed : w.tree.Closed) {depth : Nat} {names place : Location} :
    place ∈ filesBelow w root pattern depth names ↔
      ∃ below name, place = names ++ below ++ [name] ∧ below.length < depth ∧
        (w.tree.get? (w.placeOf root ++ place)).isSome ∧
        w.tree.get? (w.placeOf root ++ place) ≠ some .directory ∧
        globMatches pattern (Utf8.decode name) = true ∧
        leadsToFile w (root.below place).text = true := by
  induction depth generalizing names with
  | zero => simp [filesBelow]
  | succ depth ih =>
    rw [filesBelow_succ]
    simp only [List.mem_append, List.mem_map, List.mem_filter, List.mem_flatMap, mem_listed,
      mem_namesIn, Bool.not_eq_true', Bool.and_eq_true, ih, isDirectory_iff, ← Bool.not_eq_true]
    constructor
    · rintro (⟨name, ⟨⟨present, other⟩, fits, leads⟩, rfl⟩ |
        ⟨around, ⟨-, -⟩, below, name, rfl, shallow, found⟩)
      · exact ⟨[], name, by simp, by simp, by simpa using present, by simpa using other, fits,
          leads⟩
      · exact ⟨around :: below, name, by simp, by simpa using shallow, found⟩
    · rintro ⟨below, name, rfl, shallow, present, other, fits, leads⟩
      cases below with
      | nil =>
        refine .inl ⟨name, ⟨⟨?_, ?_⟩, fits, ?_⟩, by simp⟩
        · simpa using present
        · simpa using other
        · simpa using leads
      | cons around below =>
        have directory : w.tree.get? (w.placeOf root ++ names ++ [around]) = some .directory :=
          closed.directory_of_below (show below ++ [name] ≠ [] by simp) (by simpa using present)
        exact .inr ⟨around, ⟨by rw [directory]; rfl, directory⟩, below, name, by simp,
          by simpa using shallow, present, other, fits, leads⟩

theorem nodup_filesBelow (sound : w.tree.Sound) (depth : Nat) (names : Location) :
    (filesBelow w root pattern depth names).Nodup := by
  induction depth generalizing names with
  | zero => exact List.nodup_nil
  | succ depth ih =>
    have distinct := nodup_listed sound.distinct (w.placeOf root ++ names)
    rw [filesBelow_succ]
    refine List.nodup_append.mpr ⟨?_, List.nodup_flatMap.mpr ⟨fun name _ => ih _, ?_⟩, ?_⟩
    · refine ((distinct.filter _).filter _).map fun name other same => ?_
      exact List.singleton_inj.mp (List.append_cancel_left same)
    · refine (distinct.filter _).imp ?_
      intro name other different place inside inside'
      obtain ⟨below, last, rfl, -⟩ := (mem_filesBelow sound.closed).mp inside
      obtain ⟨below', last', same, -⟩ := (mem_filesBelow sound.closed).mp inside'
      simp only [List.append_assoc, List.append_cancel_left_eq, List.cons_append,
        List.nil_append, List.cons.injEq] at same
      exact different same.1
    · intro place inside place' inside' same
      obtain ⟨name, -, rfl⟩ := List.mem_map.mp inside
      obtain ⟨around, -, below⟩ := List.mem_flatMap.mp inside'
      obtain ⟨below, last, rfl, -⟩ := (mem_filesBelow sound.closed).mp below
      have lengths := congrArg List.length same
      simp at lengths

/-- What a walk tells when it ends: every directory below its root has been listed, every entry
whose name matches has been asked for, and the paths are those of the files among them, each once
and in order. -/
structure Walked (w : World) (root : Path) (pattern : Text) (files : List Path) : Prop where
  walkable : Walkable w root
  asks : ∀ names name, (w.tree.get? (w.placeOf root ++ names ++ [name])).isSome →
    w.tree.get? (w.placeOf root ++ names ++ [name]) ≠ some .directory →
    globMatches pattern (Utf8.decode name) = true →
    ∃ found, w.find (root.below (names ++ [name])).text = .ok found
  nodup : files.Nodup
  sorted : files.Pairwise fun path next => path.le next = true
  mem_iff : ∀ path, path ∈ files ↔ ∃ names name, path = root.below (names ++ [name]) ∧
    (∀ part ∈ names ++ [name], IsEntryName part) ∧
    globMatches pattern (Utf8.decode name) = true ∧ leadsToFile w path.text = true

/-- Nothing but a fault can stop a walk that has come to an end once. -/
theorem Walked.smooth {files : List Path} (walked : Walked w root pattern files)
    (faultless : w.faults = Faults.none) : Smooth w root pattern :=
  ⟨faultless, walked.walkable, walked.asks⟩

/-- The paths of a walk can be in order in one way only. -/
theorem Walked.eq_of_perm {files files' : List Path} (walked : Walked w root pattern files)
    (sorted : files'.Pairwise fun path next => path.le next = true) (perm : files'.Perm files) :
    files' = files := by
  have roots : ∀ path ∈ files, path.root = root.root := by
    intro path member
    obtain ⟨names, name, rfl, -⟩ := (walked.mem_iff path).mp member
    rfl
  apply List.Perm.eq_of_pairwise _ sorted walked.sorted perm
  intro path next member member'
  exact Path.le_antisymm ((roots path (perm.subset member)).trans (roots next member').symm)

/-- The paths of a walk are determined by which of them lead to files. -/
theorem Walked.unique {files files' : List Path} (walked : Walked w root pattern files)
    (walked' : Walked v root pattern files')
    (same : ∀ text, leadsToFile v text = leadsToFile w text) : files' = files := by
  have members : ∀ path, path ∈ files' ↔ path ∈ files := by
    intro path
    rw [walked.mem_iff, walked'.mem_iff]
    simp only [same]
  exact walked.eq_of_perm walked'.sorted
    ((List.perm_ext_iff_of_nodup walked'.nodup walked.nodup).mpr members)

/-- What can be asked for and is there is found. -/
theorem found_of_canAsk (sound : w.tree.Sound) (free : w.tree.LinkFree) (clean : root.Clean)
    (written : isPath root.text = true)
    (start : ∃ place, w.find root.text = .ok ⟨place, some .directory⟩) {names : Location}
    {name : EntryName} (present : (w.tree.get? (w.placeOf root ++ (names ++ [name]))).isSome)
    (asked : CanAsk w (root.below (names ++ [name])).text) :
    ∃ found, w.find (root.below (names ++ [name])).text = .ok found := by
  have valid := sound.below present
  obtain ⟨top, start⟩ := start
  rcases find_below_of_present free sound.closed clean start valid present true with found | long
  · exact found
  · rcases asked with null | absent
    · rw [Path.isPath_below written valid] at null
      cases null
    · cases absent _ long

theorem walked_filesBelow (sound : w.tree.Sound) (free : w.tree.LinkFree) (clean : root.Clean)
    (written : isPath root.text = true)
    (start : ∃ place, w.find root.text = .ok ⟨place, some .directory⟩)
    (lists : ∀ names, names.length < w.tree.entries.length + 2 →
      w.tree.get? (w.placeOf root ++ names) = some .directory →
      ∃ found, w.find (root.directoryText names) = .ok found)
    (asked : ∀ names name, names.length < w.tree.entries.length + 2 →
      (w.tree.get? (w.placeOf root ++ (names ++ [name]))).isSome →
      w.tree.get? (w.placeOf root ++ (names ++ [name])) ≠ some .directory →
      globMatches pattern (Utf8.decode name) = true → CanAsk w (root.below (names ++ [name])).text)
    {files : List Path} (sorted : files.Pairwise fun path next => path.le next = true)
    (perm : files.Perm
      ((filesBelow w root pattern (w.tree.entries.length + 2) []).map root.below)) :
    Walked w root pattern files := by
  have shallow : ∀ names, w.tree.get? (w.placeOf root ++ names) = some .directory →
      names.length < w.tree.entries.length + 2 := by
    intro names directory
    have bound := sound.closed.length_le (by rw [directory]; rfl)
    rw [List.length_append] at bound
    omega
  refine ⟨⟨written, start, fun names directory => lists names (shallow names directory) directory⟩,
    fun names name present plain fits => ?_,
    perm.nodup_iff.mpr ((nodup_filesBelow sound _ _).map root.below_injective), sorted,
    fun path => ?_⟩
  · rw [List.append_assoc] at present plain
    have around : w.tree.get? (w.placeOf root ++ names) = some .directory :=
      sound.closed.directory_of_below (show [name] ≠ [] by simp) (by simpa using present)
    exact found_of_canAsk sound free clean written start present
      (asked names name (shallow names around) present plain fits)
  rw [perm.mem_iff, List.mem_map]
  constructor
  · rintro ⟨place, member, rfl⟩
    obtain ⟨below, name, rfl, -, present, -, fits, leads⟩ := (mem_filesBelow sound.closed).mp member
    exact ⟨below, name, rfl, sound.below present, fits, leads⟩
  · rintro ⟨names, name, rfl, valid, fits, leads⟩
    obtain ⟨-, place, data, mode, finds⟩ := leadsToFile_iff.mp leads
    have found := find_below free clean valid finds
    injection found with _ entry
    have present : (w.tree.get? (w.placeOf root ++ (names ++ [name]))).isSome := by
      rw [← entry]
      rfl
    have around : w.tree.get? (w.placeOf root ++ names) = some .directory :=
      sound.closed.directory_of_below (show [name] ≠ [] by simp) (by simpa using present)
    refine ⟨_, (mem_filesBelow sound.closed).mpr ⟨names, name, rfl, shallow names around, present,
      ?_, fits, leads⟩, rfl⟩
    rw [List.nil_append, ← entry]
    simp

/-- A walk changes nothing; it gives the files below its root, unless something stops it. -/
theorem walkNative_ensures (sound : w.tree.Sound) (free : w.tree.LinkFree) (clean : root.Clean)
    (followLinks : Bool) (pattern : Text) :
    (walkNative followLinks root pattern).Ensures w
      (fun files v => w.Unmoved v ∧ Walked w root pattern files)
      (fun _ v => w.Unmoved v ∧ ¬Smooth w root pattern) := by
  unfold walkNative
  rw [Action.ensures_bind]
  refine (isDirectory_ensures w root.text).mono ?_ ?_
  · rintro answer w ⟨rfl, tells⟩
    cases answer with
    | false =>
      refine ⟨.refl _, fun smooth => ?_⟩
      exact Bool.false_ne_true (tells.mpr ⟨smooth.walkable.written, smooth.walkable.start⟩)
    | true =>
      obtain ⟨written, place, finds⟩ := tells.mp rfl
      simp only [Bool.not_true, Bool.false_eq_true, ↓reduceIte]
      rw [Action.ensures_bind, Action.ensures_get, Action.ensures_bind]
      have directory : w.tree.get? (w.placeOf root ++ []) = some .directory := by
        have found := find_linkFree free finds
        rw [Path.ofText_text clean] at found
        injection found with _ entry
        rw [List.append_nil, ← entry]
      refine (visit_ensures sound free clean followLinks pattern _ {} [] _ (.refl _) directory
        (by simp)).mono ?_ fun _ _ raised => raised
      rintro after v ⟨unmoved, files, -, lists, asked⟩
      rw [Action.ensures_bind, Action.log, Action.record, Action.ensures_modify,
        Action.ensures_pure]
      refine ⟨⟨unmoved.tree, unmoved.setting, unmoved.past⟩,
        walked_filesBelow sound free clean written ⟨place, finds⟩
          (fun names shallow directory => ?_) (fun names name shallow => ?_)
          (List.pairwise_mergeSort Path.le_trans Path.le_total _) ?_⟩
      · simpa using lists names shallow (by simpa using directory)
      · simpa using asked names name shallow
      · refine (List.mergeSort_perm _ _).trans ?_
        rw [files]
        exact .refl _
  · rintro _ _ ⟨rfl, refuses⟩
    refine ⟨.refl _, fun smooth => ?_⟩
    obtain ⟨place, finds⟩ := smooth.walkable.start
    exact refuses.not_found _ finds

/-- Nothing stops a walk where only files stand and their paths can be followed. -/
theorem smooth_of_files (faultless : w.faults = Faults.none)
    (written : isPath root.text = true)
    (start : w.find root.text = .ok ⟨[], some .directory⟩) (top : w.placeOf root = [])
    (files : ∀ p ∈ w.tree.entries, p.2 ≠ .directory)
    (finds : ∀ p ∈ w.tree.entries, (w.find (root.below p.1).text).isOk = true) (pattern : Text) :
    Smooth w root pattern := by
  refine ⟨faultless, ⟨written, ⟨_, start⟩, ?_⟩, ?_⟩
  · intro names directory
    rw [top, List.nil_append] at directory
    have none : names = [] := by
      by_contra inner
      exact files _ (mem_entries_of_get? inner directory) rfl
    subst none
    exact ⟨_, start⟩
  · intro names name present _ _
    rw [top, List.nil_append] at present
    obtain ⟨e, entry⟩ := Option.isSome_iff_exists.mp present
    have reached := finds _ (mem_entries_of_get? (by simp) entry)
    cases leads : w.find (root.below (names ++ [name])).text with
    | ok found => exact ⟨found, rfl⟩
    | error errno =>
      rw [leads] at reached
      cases reached

end Walker

end Renewal
