import Mathlib.Logic.Relation
import Renewal.Proofs.Walk

/-! # The tour of a walk

A walk lists one directory after the other, the directories inside one before those that follow it,
and enters a place only once, whichever paths lead to it. `Tour.Step` is one turn of it. A walk ends
when nothing is ahead of its tour, or stops where the tour cannot go on (`walkNative_tours`). It is
never cut short: the places entered are different directories of a tree, and so there is always
some depth left.
-/

namespace Renewal.Walker

open Renewal.Tree World FileSystem Relation

variable {w v : World} {followLinks : Bool} {pattern directory path : Text} {place : Location}
  {failure : Failure}

/-- Listing a directory fails always or never. -/
def Steady (w : World) : Prop :=
  ∀ time time' path, w.faults time (.list path) = w.faults time' (.list path)

/-- A path leads to a directory that can be listed. -/
structure Lists (w : World) (directory : Text) (place : Location) : Prop where
  unhindered : ∀ time, w.faults time (.list directory) = none
  leads : w.find directory = .ok ⟨place, some .directory⟩

theorem Lists.unique {place' : Location} (lists : Lists w directory place)
    (lists' : Lists w directory place') : place = place' := by
  have same := lists.leads.symm.trans lists'.leads
  injection same with same
  injection same

theorem Lists.isDirectory (lists : Lists w directory place) :
    w.tree.get? place = some .directory :=
  (entry_of_find lists.leads).symm

/-- The directories that a walk goes on to from a directory. -/
def onward (w : World) (followLinks : Bool) (directory : Text) (place : Location) : List Text :=
  (((w.namesIn place).filter fun name =>
    countsAsDirectory w place name (join directory (Utf8.decode name))).map fun name =>
      join directory (Utf8.decode name)).filter fun path => followLinks || !isLink w path

/-- The names in a directory that may be those of files. -/
def others (w : World) (directory : Text) (place : Location) : List EntryName :=
  (w.namesIn place).filter fun name =>
    !countsAsDirectory w place name (join directory (Utf8.decode name))

/-- The files that a walk finds in a directory. -/
def filesAt (w : World) (pattern : Text) (stop : Text × Location) : List Path :=
  (((others w stop.1 stop.2).map Utf8.decode).filter fun name => globMatches pattern name &&
    leadsToFile w ((Path.ofText stop.1).child name).text).map (Path.ofText stop.1).child

/-- A walk asks in a directory whether there is a file at a path. -/
def Asks (w : World) (pattern : Text) (stop : Text × Location) (path : Text) : Prop :=
  ∃ name ∈ others w stop.1 stop.2, globMatches pattern (Utf8.decode name) = true ∧
    path = ((Path.ofText stop.1).child (Utf8.decode name)).text

/-- How far a walk has come. -/
structure Tour where
  /-- The directories that it has entered, each by a path that leads to its place. -/
  entered : List (Text × Location)
  /-- The paths of the directories that it will list next. -/
  ahead : List Text

namespace Tour

/-- The next directory is listed; what is in it lies ahead if it is a new one. -/
inductive Step (w : World) (followLinks : Bool) : Tour → Tour → Prop
  | skip {entered : List (Text × Location)} {directory : Text} {ahead : List Text}
      {place : Location} (lists : Lists w directory place)
      (known : place ∈ entered.map Prod.snd) :
      Step w followLinks ⟨entered, directory :: ahead⟩ ⟨entered, ahead⟩
  | enter {entered : List (Text × Location)} {directory : Text} {ahead : List Text}
      {place : Location} (lists : Lists w directory place)
      (new : place ∉ entered.map Prod.snd) :
      Step w followLinks ⟨entered, directory :: ahead⟩
        ⟨entered ++ [(directory, place)], onward w followLinks directory place ++ ahead⟩

/-- Any number of turns. -/
abbrev Steps (w : World) (followLinks : Bool) : Tour → Tour → Prop :=
  ReflTransGen (Step w followLinks)

variable {s s' : Tour} {entered : List (Text × Location)} {ahead : List Text}

theorem Step.unique {s'' : Tour} (first : Step w followLinks s s')
    (second : Step w followLinks s s'') : s' = s'' := by
  cases first with
  | skip lists known =>
    cases second with
    | skip _ _ => rfl
    | enter lists' new =>
      cases lists.unique lists'
      exact absurd known new
  | enter lists new =>
    cases second with
    | skip lists' known =>
      cases lists.unique lists'
      exact absurd known new
    | enter lists' _ =>
      cases lists.unique lists'
      rfl

/-- What lies further ahead makes no difference. -/
theorem Steps.append (steps : Steps w followLinks s s') (more : List Text) :
    Steps w followLinks ⟨s.entered, s.ahead ++ more⟩ ⟨s'.entered, s'.ahead ++ more⟩ := by
  induction steps with
  | refl => exact .refl
  | tail _ step ih =>
    refine ih.tail ?_
    cases step with
    | skip lists known => exact .skip lists known
    | enter lists new =>
      dsimp only
      rw [List.append_assoc]
      exact .enter lists new

/-- Wherever a tour comes to, it is on the way to its end. -/
theorem Steps.to_end (ends : Steps w followLinks s ⟨entered, []⟩)
    (comes : Steps w followLinks s s') : Steps w followLinks s' ⟨entered, []⟩ := by
  rcases ends.total_of_right_unique (fun _ _ _ first second => first.unique second) comes with
    later | onward
  · rcases later.cases_head with rfl | ⟨_, step, -⟩
    · exact .refl
    · cases step
  · exact onward

/-- A tour that comes to an end can list every directory that it comes to. -/
theorem Steps.lists {met : List (Text × Location)}
    (ends : Steps w followLinks s ⟨entered, []⟩)
    (comes : Steps w followLinks s ⟨met, directory :: ahead⟩) :
    ∃ place, Lists w directory place := by
  rcases (ends.to_end comes).cases_head with same | ⟨_, step, -⟩
  · cases same
  · cases step with
    | skip lists _ => exact ⟨_, lists⟩
    | enter lists _ => exact ⟨_, lists⟩

/-- The places that a tour has entered are different directories. -/
structure Proper (w : World) (entered : List (Text × Location)) : Prop where
  nodup : (entered.map Prod.snd).Nodup
  directories : ∀ stop ∈ entered, w.tree.get? stop.2 = some .directory

theorem proper_nil (w : World) : Proper w [] :=
  ⟨List.nodup_nil, by simp⟩

theorem Step.proper (step : Step w followLinks s s') (proper : Proper w s.entered) :
    Proper w s'.entered := by
  cases step with
  | skip _ _ => exact proper
  | enter lists new =>
    refine ⟨?_, fun stop member => ?_⟩
    · rw [List.map_append, List.map_singleton, ← List.concat_eq_append]
      exact proper.nodup.concat new
    · rcases List.mem_append.mp member with before | now
      · exact proper.directories stop before
      · rw [List.mem_singleton.mp now]
        exact lists.isDirectory

theorem Steps.proper (steps : Steps w followLinks s s') (proper : Proper w s.entered) :
    Proper w s'.entered := by
  induction steps with
  | refl => exact proper
  | tail _ step ih => exact step.proper ih

/-- There are no more directories in a tree than entries, and its root. -/
theorem Proper.length_le (proper : Proper w entered) :
    entered.length ≤ w.tree.entries.length + 1 := by
  have inside : entered.map Prod.snd ⊆ [] :: w.tree.entries.map Prod.fst := by
    intro place member
    obtain ⟨stop, among, rfl⟩ := List.mem_map.mp member
    have directory := proper.directories stop among
    by_cases root : stop.2 = []
    · exact root ▸ List.mem_cons_self
    · refine List.mem_cons_of_mem _ (List.mem_map.mpr ⟨_, mem_entries_of_get? root directory, rfl⟩)
  have bound := (proper.nodup.subperm inside).length_le
  simpa using bound

/-- A tour that starts somewhere comes to a directory that cannot be listed, or to one in which a
question is refused, and this is the failure. -/
inductive Stops (w : World) (followLinks : Bool) (pattern : Text) (start : Tour) :
    Failure → Prop
  | unlisted {entered : List (Text × Location)} {directory : Text} {ahead : List Text}
      (errno : Errno) (comes : Steps w followLinks start ⟨entered, directory :: ahead⟩)
      (cannot : ∀ place, ¬Lists w directory place) :
      Stops w followLinks pattern start (.enumeration (.cannotList directory errno))
  | refused {entered : List (Text × Location)} {directory path : Text} {ahead : List Text}
      {place : Location} {failure : Failure}
      (comes : Steps w followLinks start ⟨entered, directory :: ahead⟩)
      (lists : Lists w directory place) (new : place ∉ entered.map Prod.snd)
      (asks : Asks w pattern (directory, place) path) (refuses : Refuses w path failure) :
      Stops w followLinks pattern start failure

theorem Stops.later (before : Steps w followLinks s s')
    (stops : Stops w followLinks pattern s' failure) : Stops w followLinks pattern s failure := by
  cases stops with
  | unlisted errno comes cannot => exact .unlisted errno (before.trans comes) cannot
  | refused comes lists new asks refuses =>
    exact .refused (before.trans comes) lists new asks refuses

theorem Stops.append (stops : Stops w followLinks pattern s failure) (more : List Text) :
    Stops w followLinks pattern ⟨s.entered, s.ahead ++ more⟩ failure := by
  cases stops with
  | unlisted errno comes cannot => exact .unlisted errno (comes.append more) cannot
  | refused comes lists new asks refuses =>
    exact .refused (comes.append more) lists new asks refuses

end Tour

open Tour

theorem countsAsDirectory_of_unmoved (unmoved : w.Unmoved v) (place : Location) (name : EntryName)
    (path : Text) : countsAsDirectory v place name path = countsAsDirectory w place name path := by
  unfold countsAsDirectory leadsToDirectory
  rw [unmoved.tree, find_of_unmoved unmoved]

theorem isLink_of_unmoved (unmoved : w.Unmoved v) (path : Text) :
    isLink v path = isLink w path := by
  unfold isLink
  rw [find_of_unmoved unmoved]

theorem list_steady_ensures (steady : Steady w) (unmoved : w.Unmoved v) (directory : Text) :
    (list directory).Ensures v
      (fun result u => w.Unmoved u ∧
        ((∃ errno, result = .error errno ∧ ∀ place, ¬Lists w directory place) ∨
          ∃ place, result = .ok (w.namesIn place) ∧ Lists w directory place))
      (fun _ _ => False) := by
  refine (list_ensures unmoved directory).mono ?_ fun _ _ impossible => impossible
  rintro result u ⟨unmoved, tells⟩
  refine ⟨unmoved, ?_⟩
  cases result with
  | error errno =>
    refine .inl ⟨errno, rfl, fun place lists => ?_⟩
    rcases tells with fault | nowhere
    · exact fault (lists.unhindered _)
    · exact nowhere place lists.leads
  | ok names =>
    obtain ⟨unhindered, place, leads, rfl⟩ := tells
    exact .inr ⟨place, rfl, fun time => (steady _ _ _).trans unhindered, leads⟩

/-- What a walk has found on its tour, and asked for, until only some directories are ahead. -/
def Toured (w : World) (followLinks : Bool) (pattern : Text) (files : List Path) (start : Tour)
    (rest : List Text) (after : Progress) : Prop :=
  ∃ more,
    after = ⟨files ++ more.flatMap (filesAt w pattern), (start.entered ++ more).map Prod.snd⟩ ∧
    Steps w followLinks start ⟨start.entered ++ more, rest⟩ ∧
    ∀ stop ∈ more, ∀ path, Asks w pattern stop path → CanAsk w path

/-- A walk of a directory is a tour from there on. -/
def Follows (w : World) (followLinks : Bool) (pattern : Text) (depth : Nat) : Prop :=
  ∀ {entered : List (Text × Location)} {v : World} (files : List Path) (directory : Text),
    w.Unmoved v → Proper w entered → w.tree.entries.length + 2 ≤ entered.length + depth →
    (visit followLinks pattern depth ⟨files, entered.map Prod.snd⟩ directory).Ensures v
      (fun after u => w.Unmoved u ∧
        Toured w followLinks pattern files ⟨entered, [directory]⟩ [] after)
      (fun failure u => w.Unmoved u ∧
        Stops w followLinks pattern ⟨entered, [directory]⟩ failure)

theorem visitAll_follows {depth : Nat} (follows : Follows w followLinks pattern depth)
    {entered : List (Text × Location)} (proper : Proper w entered)
    (deep : w.tree.entries.length + 2 ≤ entered.length + depth) (unmoved : w.Unmoved v)
    (files : List Path) (ahead : List Text) :
    (ahead.foldlM (visit followLinks pattern depth) ⟨files, entered.map Prod.snd⟩).Ensures v
      (fun after u => w.Unmoved u ∧ Toured w followLinks pattern files ⟨entered, ahead⟩ [] after)
      (fun failure u => w.Unmoved u ∧ Stops w followLinks pattern ⟨entered, ahead⟩ failure) := by
  refine Action.ensures_foldlM (fun rest sum u => w.Unmoved u ∧
    Toured w followLinks pattern files ⟨entered, ahead⟩ rest sum) ?_ ?_
  · rintro directory rest sum u ⟨unmoved, more, rfl, before, asked⟩
    have room : w.tree.entries.length + 2 ≤ (entered ++ more).length + depth := by
      rw [List.length_append]
      omega
    refine (follows _ directory unmoved (before.proper proper) room).mono ?_ ?_
    · rintro after u ⟨unmoved, further, rfl, steps, askedNow⟩
      refine ⟨unmoved, more ++ further, by simp, ?_, fun stop member => ?_⟩
      · rw [← List.append_assoc]
        exact before.trans (steps.append rest)
      · exact (List.mem_append.mp member).elim (asked stop) (askedNow stop)
    · rintro failure u ⟨unmoved, stops⟩
      exact ⟨unmoved, (stops.append rest).later before⟩
  · exact ⟨unmoved, [], by simp, by rw [List.append_nil], by simp⟩

theorem visit_follows (steady : Steady w) (followLinks : Bool) (pattern : Text) (depth : Nat) :
    Follows w followLinks pattern depth := by
  induction depth with
  | zero =>
    intro entered v files directory unmoved proper deep
    have bound := proper.length_le
    omega
  | succ depth ih =>
    intro entered v files directory unmoved proper deep
    rw [visit, Action.ensures_bind]
    refine (list_steady_ensures steady unmoved directory).mono ?_ fun _ _ impossible =>
      impossible.elim
    rintro result u ⟨unmoved, ⟨errno, rfl, cannot⟩ | ⟨place, rfl, lists⟩⟩
    · exact ⟨unmoved, .unlisted errno .refl cannot⟩
    · dsimp only
      rw [Action.ensures_bind, Action.ensures_get, find_of_unmoved unmoved, lists.leads]
      dsimp only
      by_cases known : place ∈ entered.map Prod.snd
      · rw [if_pos (List.contains_iff_mem.mpr known)]
        have later : w.Unmoved { u with log := u.log ++
            [⟨.debug, .concat ["Skipping symlink loop at ", directory], none⟩] } :=
          ⟨unmoved.tree, unmoved.setting, unmoved.past⟩
        exact ⟨later, [], by simp, by simpa using ReflTransGen.single (.skip lists known), by simp⟩
      · rw [if_neg (mt List.contains_iff_mem.mp known)]
        simp only [countsAsDirectory_of_unmoved unmoved, isLink_of_unmoved unmoved,
          List.partition_eq_filter_filter]
        rw [Action.ensures_bind]
        refine (filesIn_ensures unmoved _ _).mono ?_ ?_
        · rintro found u ⟨unmoved, rfl, asked⟩
          have entering : Steps w followLinks ⟨entered, [directory]⟩
              ⟨entered ++ [(directory, place)], onward w followLinks directory place⟩ := by
            have step : Step w followLinks ⟨entered, [directory]⟩ ⟨entered ++ [(directory, place)],
              onward w followLinks directory place ++ []⟩ := .enter lists known
            rw [List.append_nil] at step
            exact .single step
          have room : w.tree.entries.length + 2 ≤
              (entered ++ [(directory, place)]).length + depth := by
            rw [List.length_append, List.length_singleton]
            omega
          have rest := visitAll_follows ih (entering.proper proper) room unmoved
            (files ++ filesAt w pattern (directory, place)) (onward w followLinks directory place)
          rw [List.map_append] at rest
          refine rest.mono ?_ ?_
          · rintro after u ⟨unmoved, more, rfl, steps, askedBelow⟩
            refine ⟨unmoved, (directory, place) :: more, by simp, ?_, fun stop member => ?_⟩
            · simpa using entering.trans steps
            · rcases List.mem_cons.mp member with rfl | below
              · rintro path ⟨name, among, fits, rfl⟩
                exact asked _ (List.mem_map_of_mem among) fits
              · exact askedBelow stop below
          · rintro failure u ⟨unmoved, stops⟩
            exact ⟨unmoved, stops.later entering⟩
        · rintro failure u ⟨unmoved, _, member, fits, refuses⟩
          obtain ⟨name, among, rfl⟩ := List.mem_map.mp member
          exact ⟨unmoved, .refused .refl lists known ⟨name, among, fits, rfl⟩ refuses⟩

/-- A path leads to a directory. -/
def IsDirectory (w : World) (path : Text) : Prop :=
  isPath path = true ∧ ∃ place, w.find path = .ok ⟨place, some .directory⟩

/-- A walk is a tour that starts at its root. It gives the files in the directories that it has
entered, or a failure where the tour cannot go on. -/
theorem walkNative_tours (steady : Steady w) (followLinks : Bool) (root : Path) (pattern : Text) :
    (walkNative followLinks root pattern).Ensures w
      (fun files v => w.Unmoved v ∧ IsDirectory w root.text ∧ ∃ entered,
        Steps w followLinks ⟨[], [root.text]⟩ ⟨entered, []⟩ ∧
        files = (entered.flatMap (filesAt w pattern)).mergeSort Path.le ∧
        ∀ stop ∈ entered, ∀ path, Asks w pattern stop path → CanAsk w path)
      (fun failure v => w.Unmoved v ∧
        (Refuses w root.text failure ∨
          ¬IsDirectory w root.text ∧ failure = .enumeration (.notDirectory root.text) ∨
          IsDirectory w root.text ∧ Stops w followLinks pattern ⟨[], [root.text]⟩ failure)) := by
  unfold walkNative
  rw [Action.ensures_bind]
  refine (isDirectory_ensures w root.text).mono ?_ ?_
  · rintro answer w ⟨rfl, tells⟩
    cases answer with
    | false =>
      refine ⟨.refl _, .inr (.inl ⟨fun isDirectory => ?_, rfl⟩)⟩
      exact Bool.false_ne_true (tells.mpr isDirectory)
    | true =>
      simp only [Bool.not_true, Bool.false_eq_true, ↓reduceIte]
      rw [Action.ensures_bind, Action.ensures_get, Action.ensures_bind]
      refine (visit_follows steady followLinks pattern _ [] root.text (.refl _) (proper_nil _)
        (by simp)).mono ?_ ?_
      · rintro after v ⟨unmoved, entered, rfl, steps, asked⟩
        rw [Action.ensures_bind, Action.log, Action.record, Action.ensures_modify,
          Action.ensures_pure]
        exact ⟨⟨unmoved.tree, unmoved.setting, unmoved.past⟩, tells.mp rfl, entered, steps, rfl,
          asked⟩
      · rintro failure v ⟨unmoved, stops⟩
        exact ⟨unmoved, .inr (.inr ⟨tells.mp rfl, stops⟩)⟩
  · rintro failure _ ⟨rfl, refuses⟩
    exact ⟨.refl _, .inl refuses⟩

end Renewal.Walker
