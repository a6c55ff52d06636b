import Renewal.Proofs.Footprint
import Renewal.Settings.Basic

/-! # How settings are merged

Each setting takes the value that its own variable of the environment gives, else the value of its
own entry in the settings file, else its default; a value that is not of the kind of the setting
counts as none (`Setting.Takes`). The environment is asked for one setting after the other, and what
is asked for one setting changes no other, so that settings do not depend on each other
(`Settings.settings_merge`).
-/

namespace Renewal

/-- A later world with the same environment. -/
def World.SameEnvironment (w v : World) : Prop :=
  v.environment = w.environment

instance : Action.Housekeeping World.SameEnvironment where
  refl _ := rfl
  trans first second := second.trans first
  tick _ _ := rfl
  note _ _ := rfl
  call _ _ _ := rfl

/-- The JSON value for the value of a setting. -/
def SettingValue.json : SettingValue → Json
  | .flag b => .bool b
  | .integer n => .integer n
  | .text t => .string t

theorem SettingKind.kind_of_read {kind : SettingKind} {t : Text} {value : SettingValue}
    (reads : kind.read t = .ok value) : value.kind = kind := by
  unfold SettingKind.read at reads
  cases kind with
  | flag =>
    dsimp only at reads
    split at reads
    · cases reads
      rfl
    · split at reads
      · cases reads
        rfl
      · cases reads
  | integer =>
    dsimp only at reads
    split at reads
    · cases reads
      rfl
    · cases reads
  | text =>
    cases reads
    rfl

namespace Setting

variable {s other : Setting} {environment : List (Text × Text)} {file : Option Json} {j : Json}
  {value value' : SettingValue}

/-- The entry of a setting in a settings file. -/
def entry? (s : Setting) (file : Json) : Option Json :=
  (file.field? s.group.name).bind fun group => group.field? s.key

/-- A file has an entry if it is an object that has an object for the group. -/
theorem entry?_eq_some_iff : s.entry? j = some value.json ↔
    ∃ groups keys, j = .object groups ∧
      Fields.get? groups s.group.name = some (.object keys) ∧
      Fields.get? keys s.key = some value.json := by
  unfold entry?
  constructor
  · intro found
    obtain ⟨group, inFile, inGroup⟩ := Option.bind_eq_some_iff.mp found
    cases j with
    | object groups =>
      cases group with
      | object keys => exact ⟨groups, keys, rfl, inFile, inGroup⟩
      | null | bool b | integer n | real x | string t | list js => cases inGroup
    | null | bool b | integer n | real x | string t | list js => cases inFile
  · intro ⟨groups, keys, isObject, inFile, inGroup⟩
    subst isObject
    exact Option.bind_eq_some_iff.mpr ⟨_, inFile, inGroup⟩

theorem ofJson?_eq_some_iff : s.ofJson? j = some value ↔ j = value.json ∧ value.kind = s.kind := by
  unfold ofJson?
  cases s.kind with
  | flag | integer | text =>
    cases j <;> cases value <;> simp [SettingValue.json, SettingValue.kind]

theorem inFile?_eq (s : Setting) (j : Json) : s.inFile? j = (s.entry? j).bind s.ofJson? :=
  (Option.bind_assoc _ _ _).symm

theorem inFile?_eq_some_iff :
    s.inFile? j = some value ↔ s.entry? j = some value.json ∧ value.kind = s.kind := by
  rw [inFile?_eq, Option.bind_eq_some_iff]
  constructor
  · intro ⟨entry, found, isValue⟩
    obtain ⟨rfl, kind⟩ := ofJson?_eq_some_iff.mp isValue
    exact ⟨found, kind⟩
  · intro ⟨found, kind⟩
    exact ⟨_, found, ofJson?_eq_some_iff.mpr ⟨rfl, kind⟩⟩

/-- The variable of a setting is set to a text for a value of its kind. -/
def InEnvironment (s : Setting) (environment : List (Text × Text)) (value : SettingValue) : Prop :=
  ∃ t, environment.lookup s.environmentName = some t ∧ s.kind.read t = .ok value

/-- The settings file is an object with an object for the group, in which the setting has a value
of its kind. -/
def InFile (s : Setting) (file : Option Json) (value : SettingValue) : Prop :=
  value.kind = s.kind ∧ ∃ groups keys, file = some (.object groups) ∧
    Fields.get? groups s.group.name = some (.object keys) ∧
    Fields.get? keys s.key = some value.json

/-- Which value a setting takes. -/
inductive Takes (s : Setting) (environment : List (Text × Text)) (file : Option Json) :
    SettingValue → Prop where
  | environment {value : SettingValue} (given : s.InEnvironment environment value) :
      Takes s environment file value
  | file {value : SettingValue} (unset : ∀ other, ¬s.InEnvironment environment other)
      (given : s.InFile file value) : Takes s environment file value
  | default (unset : ∀ other, ¬s.InEnvironment environment other)
      (absent : ∀ other, ¬s.InFile file other) : Takes s environment file s.default

/-- The value that the environment gives to a setting. -/
def inEnvironment? (s : Setting) (environment : List (Text × Text)) : Option SettingValue :=
  (environment.lookup s.environmentName).bind fun t => (s.kind.read t).toOption

theorem inEnvironment?_eq_some_iff :
    s.inEnvironment? environment = some value ↔ s.InEnvironment environment value := by
  unfold inEnvironment? InEnvironment
  rw [Option.bind_eq_some_iff]
  have same : ∀ t, (s.kind.read t).toOption = some value ↔ s.kind.read t = .ok value := by
    intro t
    cases s.kind.read t with
    | error e => exact iff_of_false (fun given => by cases given) fun given => by cases given
    | ok found =>
      constructor
      · intro given
        cases given
        rfl
      · intro given
        cases given
        rfl
  simp only [same]

theorem inEnvironment?_eq_none_iff :
    s.inEnvironment? environment = none ↔ ∀ other, ¬s.InEnvironment environment other := by
  rw [Option.eq_none_iff_forall_ne_some]
  exact forall_congr' fun other => not_congr inEnvironment?_eq_some_iff

theorem inFile_iff : s.InFile file value ↔ file.bind s.inFile? = some value := by
  unfold InFile
  rw [Option.bind_eq_some_iff]
  constructor
  · intro ⟨kind, groups, keys, isObject, inFile, inGroup⟩
    exact ⟨_, isObject, inFile?_eq_some_iff.mpr
      ⟨entry?_eq_some_iff.mpr ⟨groups, keys, rfl, inFile, inGroup⟩, kind⟩⟩
  · intro ⟨j, read, given⟩
    obtain ⟨found, kind⟩ := inFile?_eq_some_iff.mp given
    obtain ⟨groups, keys, rfl, inFile, inGroup⟩ := entry?_eq_some_iff.mp found
    exact ⟨kind, groups, keys, read, inFile, inGroup⟩

theorem bind_inFile?_eq_none_iff :
    file.bind s.inFile? = none ↔ ∀ other, ¬s.InFile file other := by
  rw [Option.eq_none_iff_forall_ne_some]
  exact forall_congr' fun other => not_congr inFile_iff.symm

theorem kind_of_inEnvironment (given : s.InEnvironment environment value) :
    value.kind = s.kind := by
  obtain ⟨t, -, reads⟩ := given
  exact SettingKind.kind_of_read reads

theorem Takes.kind (takes : s.Takes environment file value) : value.kind = s.kind := by
  cases takes with
  | environment given => exact kind_of_inEnvironment given
  | file unset given => exact given.1
  | default unset absent => rfl

theorem all_complete (s : Setting) : s ∈ all := by
  cases s <;> decide

/-- The name of the variable of a setting, letter by letter: its group and its name in capitals. -/
def variableName (s : Setting) : Text :=
  ("NSMODERNIZER_".toList ++ s.group.name.toList.map Char.toUpper ++ "_".toList ++
    s.key.toList.map Char.toUpper).map CodePoint.ofChar

theorem environmentName_eq (s : Setting) : s.environmentName = s.variableName := by
  unfold environmentName variableName Text.ofString String.toUpper
  simp only [String.toList_append, String.toList_map]

/-- Settings are told apart by their groups and names, and by their variables. -/
theorem eq_of_names (same : other.group = s.group ∧ other.key = s.key ∨
    other.environmentName = s.environmentName) : other = s := by
  rw [environmentName_eq, environmentName_eq] at same
  have apart : ∀ a ∈ all, ∀ b ∈ all, a.group = b.group ∧ a.key = b.key ∨
      a.variableName = b.variableName → a = b := by
    decide +kernel
  exact apart other (all_complete other) s (all_complete s) same

end Setting

namespace Settings

open FileSystem Setting

variable {environment : List (Text × Text)} {file : Option Json}

/-- The settings that come of an environment and a file. -/
def merged (environment : List (Text × Text)) (file : Option Json) : Settings := fun s =>
  (s.inEnvironment? environment).getD ((file.bind s.inFile?).getD s.default)

theorem takes_merged (s : Setting) : s.Takes environment file (merged environment file s) := by
  unfold merged
  cases given : s.inEnvironment? environment with
  | some value => exact .environment (inEnvironment?_eq_some_iff.mp given)
  | none =>
    have unset := inEnvironment?_eq_none_iff.mp given
    cases inFile : file.bind s.inFile? with
    | some value => exact .file unset (inFile_iff.mpr inFile)
    | none => exact .default unset (bind_inFile?_eq_none_iff.mp inFile)

theorem eq_merged {s : Setting} {value : SettingValue} (takes : s.Takes environment file value) :
    value = merged environment file s := by
  unfold merged
  cases takes with
  | environment given => rw [inEnvironment?_eq_some_iff.mpr given, Option.getD_some]
  | file unset given =>
    rw [inEnvironment?_eq_none_iff.mpr unset, inFile_iff.mp given, Option.getD_none,
      Option.getD_some]
  | default unset absent =>
    rw [inEnvironment?_eq_none_iff.mpr unset, bind_inFile?_eq_none_iff.mpr absent,
      Option.getD_none, Option.getD_none]

/-- Its own variable and its own entry decide the value of a setting. -/
theorem merged_congr {s : Setting} {environment' : List (Text × Text)} {file' : Option Json}
    (sameVariable : environment'.lookup s.environmentName = environment.lookup s.environmentName)
    (sameEntry : file'.bind s.entry? = file.bind s.entry?) :
    merged environment' file' s = merged environment file s := by
  have entered : ∀ file : Option Json,
      file.bind s.inFile? = (file.bind s.entry?).bind s.ofJson? := by
    intro file
    rw [Option.bind_assoc]
    exact Option.bind_congr fun j _ => s.inFile?_eq j
  rw [merged, merged, inEnvironment?, inEnvironment?, sameVariable, entered, entered, sameEntry]

/-- The environment gives a value, or the setting keeps the one it has. -/
theorem fromEnvironment_ensures (w : World) (s : Setting) (current : SettingValue) :
    (fromEnvironment s current).Ensures w
      (fun value v => w.SameEnvironment v ∧
        value = (s.inEnvironment? w.environment).getD current) (fun _ _ => False) := by
  unfold fromEnvironment inEnvironment?
  rw [Action.ensures_bind, Action.ensures_get]
  cases w.environment.lookup s.environmentName with
  | none => exact ⟨rfl, rfl⟩
  | some t =>
    dsimp only [Option.bind_some]
    cases s.kind.read t with
    | ok value => exact ⟨rfl, rfl⟩
    | error e => exact ⟨rfl, rfl⟩

/-- The settings that are asked for take what the environment gives, the others stay. -/
theorem askEnvironment_ensures (ss : List Setting) (settings : Settings) (w : World) :
    (askEnvironment ss settings).Ensures w
      (fun result _ => ∀ s, result s =
        if s ∈ ss then (s.inEnvironment? w.environment).getD (settings s) else settings s)
      (fun _ _ => False) := by
  induction ss generalizing settings w with
  | nil => exact fun s => (if_neg List.not_mem_nil).symm
  | cons first rest ih =>
    rw [askEnvironment, Action.ensures_bind]
    refine (fromEnvironment_ensures w first (settings first)).mono ?_ fun _ _ never => never
    rintro value v ⟨same, rfl⟩
    refine (ih _ v).mono ?_ fun _ _ never => never
    intro result u asked s
    rw [asked s, same]
    by_cases isFirst : s = first
    · subst isFirst
      rw [if_pos rfl, if_pos List.mem_cons_self]
      split
      · cases s.inEnvironment? w.environment <;> rfl
      · rfl
    · simp only [List.mem_cons, isFirst, false_or, if_false]

theorem within_loadFile (rel : World → World → Prop) [Action.Upkeep rel] (path : Path) :
    Action.Within rel (loadFile path) := by
  refine .tryCatch ?_ fun failure => .ite ?_ (.throw failure)
  · refine (within_entry rel path.text).bind fun entry => .ite (.pure none) ?_
    refine .bind ?_ fun bytes => .bind (.ofExcept _ _) fun text => Action.Within.get.bind fun w =>
      .bind (.ofExcept _ _) fun json => .pure (some json)
    exact (within_guardFault rel _).bind fun _ => (within_fileAt rel _).bind fun _ => .pure _
  · exact .bind (.log _ _) fun _ => .bind (.log _ _) fun _ => .pure none

/-- Settings are loaded if the file is, and they are those of the environment and the file. -/
theorem load_ensures (root : Text) (w : World) :
    (load root).Ensures w
      (fun settings _ => ∃ file u,
        (loadFile ((Path.ofText root).child fileName)).run w = .ok file u ∧
          settings = merged w.environment file)
      (fun failure v =>
        (loadFile ((Path.ofText root).child fileName)).run w = .error failure v) := by
  unfold load
  rw [Action.ensures_bind]
  refine (within_loadFile World.SameEnvironment _ w).with_run.mono ?_ fun _ _ raised => raised.1
  intro file u ⟨returned, same⟩
  refine (askEnvironment_ensures _ _ u).mono ?_ fun _ _ never => never.elim
  intro settings v asked
  refine ⟨file, u, returned, funext fun s => ?_⟩
  rw [asked s, if_pos (all_complete s), same, merged]
  cases file with
  | none => rfl
  | some j => rfl

/-- The value of each setting comes from its own variable of the environment, else from its own
entry in the file, else it is the default, and it has the kind of the default. Settings are told
apart by their groups and names, and by their variables. Nothing else of the environment or of the
file makes a difference to a setting. -/
theorem settings_merge {root : Text} {w v : World} {settings : Settings}
    (returns : (load root).run w = .ok settings v) :
    ∃ file u, (loadFile ((Path.ofText root).child fileName)).run w = .ok file u ∧
      ∀ s ∈ Setting.all, (settings s).kind = s.default.kind ∧
        s.Takes w.environment file (settings s) ∧
        (∀ other, other.group = s.group ∧ other.key = s.key ∨
          other.environmentName = s.environmentName → other = s) ∧
        ∀ root' w' v' settings' file' u', (load root').run w' = .ok settings' v' →
          (loadFile ((Path.ofText root').child fileName)).run w' = .ok file' u' →
          w'.environment.lookup s.environmentName = w.environment.lookup s.environmentName →
          file'.bind s.entry? = file.bind s.entry? → settings' s = settings s := by
  obtain ⟨file, u, loaded, rfl⟩ := (load_ensures root w).of_ok returns
  refine ⟨file, u, loaded, fun s _ => ⟨(takes_merged s).kind, takes_merged s, ?_, ?_⟩⟩
  · intro other same
    exact eq_of_names same
  · intro root' w' v' settings' file' u' returns' loaded' sameVariable sameEntry
    obtain ⟨_, _, again, rfl⟩ := (load_ensures root' w').of_ok returns'
    cases loaded'.symm.trans again
    exact merged_congr sameVariable sameEntry

/-- A settings file and an environment that give values for some settings in common; one of the
values in the environment is of no use. -/
def layered : World where
  tree := ⟨[([Encoding.nameBytes fileName], .file (Encoding.nameBytes
    ("\x7b\"scan\": \x7b\"name\": \"*.adp\", \"follow_symlinks\": false, \"encoding\": 8\x7d," ++
      "\"tools\": \x7b\"walker\": \"native\"\x7d, \"other\": []\x7d" : String)) 0o644)]⟩
  environment := [("NSMODERNIZER_TOOLS_WALKER", "find"),
    ("NSMODERNIZER_SCAN_FOLLOW_SYMLINKS", "maybe")]

/-- The environment counts before the file, but for a value of no use, and the file before the
default, but for a value of another kind. -/
theorem settings_merge_layered : ∃ settings v, (load "/").run layered = .ok settings v ∧
    settings .walker = .text "find" ∧ settings .followLinks = .flag false ∧
    settings .name = .text "*.adp" ∧ settings .encoding = .text "utf-8" := by
  have inFile : ((loadFile ((Path.ofText "/").child fileName)).run' layered).map
      (fun file => [Setting.walker, .followLinks, .name, .encoding].map (file.bind ·.inFile?)) =
      some [some (.text "native"), some (.flag false), some (.text "*.adp"), none] := by
    decide +kernel
  have inEnvironment : [Setting.walker, .followLinks, .name, .encoding].map
      (·.inEnvironment? layered.environment) = [some (.text "find"), none, none, none] := by
    simp only [inEnvironment?, environmentName_eq]
    decide +kernel
  generalize layered = w at inFile inEnvironment ⊢
  delta EStateM.run' at inFile
  have loads := load_ensures "/" w
  cases ends : (load "/").run w with
  | error failure v =>
    rw [loads.of_error ends] at inFile
    cases inFile
  | ok settings v =>
    obtain ⟨file, u, loaded, each⟩ := settings_merge ends
    rw [loaded] at inFile
    simp only [List.map_cons, List.map_nil, List.cons.injEq, Option.map_some, Option.some.injEq,
      and_true] at inFile inEnvironment
    have values : ∀ s, settings s = merged w.environment file s := fun s =>
      eq_merged (each s (all_complete s)).2.1
    refine ⟨settings, v, rfl, ?_⟩
    simp only [values, merged, inFile, inEnvironment, Option.getD_some, Option.getD_none, true_and]
    rfl

end Settings

end Renewal
