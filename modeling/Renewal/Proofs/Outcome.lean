import Mathlib.Logic.Function.Basic
import Renewal.World

/-! # How actions end

`Action.Ensures` says of an action started in a world that it returns a value and a world with one
property, or raises a failure in a world with another. What it has to ensure is read off the parts
of an action, so that a specification of a part is used without opening the part.

`World.setting` is what file operations go by besides the tree and the clock. No action changes it,
and an action that leaves the tree alone as well is quiet.
-/

namespace Renewal

namespace World

variable {w v u : World}

/-- What file operations go by, the tree and the clock apart. -/
structure Setting where
  directory : Location
  limits : PathLimits
  codecs : Text → Option Codec
  listing : Listing
  faults : Faults
  shortages : Nat → Option Shortage
  draws : Nat → Nat → Text

/-- The setting of a world. -/
def setting (w : World) : Setting :=
  ⟨w.directory, w.limits, w.codecs, w.listing, w.faults, w.shortages, w.draws⟩

/-- A later world whose tree has not been changed, in the same setting. -/
structure Unmoved (w v : World) : Prop where
  tree : v.tree = w.tree
  setting : v.setting = w.setting
  past : v.past = w.past

theorem Unmoved.refl (w : World) : Unmoved w w :=
  ⟨rfl, rfl, rfl⟩

theorem Unmoved.trans (first : Unmoved w v) (second : Unmoved v u) : Unmoved w u :=
  ⟨second.tree.trans first.tree, second.setting.trans first.setting,
    second.past.trans first.past⟩

@[simp]
theorem change_tree (w : World) (t : Tree) : (w.change t).tree = t :=
  rfl

/-- The trees that a world has had since an earlier one, its own apart, have a property. -/
def Passed (w v : World) (holds : Tree → Prop) : Prop :=
  ∃ trees, v.past = trees ++ w.past ∧ ∀ t ∈ trees, holds t

namespace Passed

variable {holds holds' : Tree → Prop}

theorem of_unmoved (unmoved : w.Unmoved v) : w.Passed v holds :=
  ⟨[], unmoved.past, by simp⟩

theorem trans (first : w.Passed v holds) (second : v.Passed u holds) : w.Passed u holds := by
  obtain ⟨trees, past, all⟩ := first
  obtain ⟨later, past', all'⟩ := second
  refine ⟨later ++ trees, by rw [past', past, List.append_assoc], ?_⟩
  intro t member
  exact (List.mem_append.mp member).elim (all' t) (all t)

theorem change (passed : w.Passed v holds) (now : holds v.tree)
    (changed : u.past = v.tree :: v.past) : w.Passed u holds :=
  passed.trans ⟨[v.tree], changed, by simpa using now⟩

theorem mono (passed : w.Passed v holds) (onward : ∀ t, holds t → holds' t) :
    w.Passed v holds' := by
  obtain ⟨trees, past, all⟩ := passed
  exact ⟨trees, past, fun t member => onward t (all t member)⟩

end Passed

theorem directory_of_setting (same : v.setting = w.setting) : v.directory = w.directory :=
  congrArg Setting.directory same

theorem limits_of_setting (same : v.setting = w.setting) : v.limits = w.limits :=
  congrArg Setting.limits same

theorem faults_of_setting (same : v.setting = w.setting) : v.faults = w.faults :=
  congrArg Setting.faults same

theorem codecs_of_setting (same : v.setting = w.setting) : v.codecs = w.codecs :=
  congrArg Setting.codecs same

theorem codec?_congr (same : v.codecs = w.codecs) (encoding : Text) :
    v.codec? encoding = w.codec? encoding := by
  unfold codec?
  rw [same]

theorem codec?_of_setting (same : v.setting = w.setting) (encoding : Text) :
    v.codec? encoding = w.codec? encoding :=
  codec?_congr (codecs_of_setting same) encoding

theorem namesIn_of_unmoved (unmoved : w.Unmoved v) (place : Location) :
    v.namesIn place = w.namesIn place := by
  unfold namesIn
  rw [show v.listing = w.listing from congrArg Setting.listing unmoved.setting, unmoved.tree]

/-- There is room for whatever is written. -/
def Roomy (w : World) : Prop :=
  ∀ n, w.shortages n = none

theorem roomy_of_setting (same : v.setting = w.setting) : v.Roomy ↔ w.Roomy := by
  unfold Roomy
  rw [show v.shortages = w.shortages from congrArg Setting.shortages same]

/-- Looking whether something stands at a path never fails. -/
def Sees (w : World) : Prop :=
  ∀ time path, w.faults time (.look path) = none

/-- Removing what stands at a path never fails. -/
def Clears (w : World) : Prop :=
  ∀ time path, w.faults time (.remove path) = none

theorem sees_of_setting (same : v.setting = w.setting) : v.Sees ↔ w.Sees := by
  unfold Sees
  rw [faults_of_setting same]

theorem clears_of_setting (same : v.setting = w.setting) : v.Clears ↔ w.Clears := by
  unfold Clears
  rw [faults_of_setting same]

theorem sees_of_faultless (faultless : w.faults = Faults.none) : w.Sees :=
  fun _ _ => by rw [faultless]; rfl

theorem clears_of_faultless (faultless : w.faults = Faults.none) : w.Clears :=
  fun _ _ => by rw [faultless]; rfl

/-- A text is written as some bytes in an encoding. -/
def Writes (w : World) (encoding text : Text) (bytes : Bytes) : Prop :=
  ∃ codec encoded, w.codec? encoding = some codec ∧ codec.encode text = .ok encoded ∧
    encoded.body = bytes

theorem Writes.unique {encoding text : Text} {bytes bytes' : Bytes}
    (writes : w.Writes encoding text bytes) (writes' : w.Writes encoding text bytes') :
    bytes = bytes' := by
  obtain ⟨codec, encoded, known, encodes, rfl⟩ := writes
  obtain ⟨codec', encoded', known', encodes', rfl⟩ := writes'
  cases known.symm.trans known'
  cases encodes.symm.trans encodes'
  rfl

/-- What is written is the text without what would close it. -/
theorem Writes.body_and_whole {encoding text : Text} {bytes : Bytes} {codec : Codec}
    {encoded : Encoded} (writes : w.Writes encoding text bytes)
    (known : w.codec? encoding = some codec) (encodes : codec.encode text = .ok encoded) :
    bytes = encoded.body ∧ (bytes = encoded.whole ↔ encoded.closing = []) := by
  obtain rfl := writes.unique ⟨codec, encoded, known, encodes, rfl⟩
  exact ⟨rfl, by simp [Encoded.whole]⟩

theorem writes_congr {encoding text : Text} {bytes : Bytes} (same : v.codecs = w.codecs) :
    v.Writes encoding text bytes ↔ w.Writes encoding text bytes := by
  unfold Writes
  rw [codec?_congr same]

theorem writes_of_setting {encoding text : Text} {bytes : Bytes} (same : v.setting = w.setting) :
    v.Writes encoding text bytes ↔ w.Writes encoding text bytes :=
  writes_congr (codecs_of_setting same)

theorem codec?_of_known {encoding : Text} {e : Encoding}
    (known : Encoding.ofName? encoding = some e) : w.codec? encoding = some e.toCodec := by
  rw [codec?, known]

theorem encode_toCodec {e : Encoding} {text : Text} {encoded : Encoded} :
    e.toCodec.encode text = .ok encoded ↔
      e.encode text = .ok encoded.body ∧ encoded.closing = [] := by
  obtain ⟨body, closing⟩ := encoded
  unfold Encoding.toCodec
  dsimp only
  cases e.encode text with
  | error failure => simp
  | ok bytes => simp [eq_comm]

/-- In the library's own encodings nothing is left out. -/
theorem writes_iff {encoding text : Text} {bytes : Bytes} {e : Encoding}
    (known : Encoding.ofName? encoding = some e) :
    w.Writes encoding text bytes ↔ e.encode text = .ok bytes := by
  rw [Writes, codec?_of_known known]
  constructor
  · rintro ⟨_, encoded, ⟨⟩, encodes, rfl⟩
    exact (encode_toCodec.mp encodes).1
  · intro encodes
    exact ⟨e.toCodec, ⟨bytes, []⟩, rfl, encode_toCodec.mpr ⟨encodes, rfl⟩, rfl⟩

/-- The library's encodings need nothing to close a text. -/
theorem encode_of_known {encoding text : Text} {codec : Codec} {encoded : Encoded} {e : Encoding}
    (listed : w.codec? encoding = some codec) (encodes : codec.encode text = .ok encoded)
    (known : Encoding.ofName? encoding = some e) :
    e.encode text = .ok encoded.body ∧ encoded.closing = [] := by
  rw [codec?_of_known known] at listed
  cases listed
  exact encode_toCodec.mp encodes

end World

namespace Action

variable {α β : Type} {w : World} {returns : α → World → Prop}
  {raises : Failure → World → Prop}

/-- An action started in a world returns a value, or raises a failure, as it should. -/
def Ensures (action : Action α) (w : World) (returns : α → World → Prop)
    (raises : Failure → World → Prop) : Prop :=
  match action.run w with
  | .ok value after => returns value after
  | .error failure after => raises failure after

theorem Ensures.of_ok {action : Action α} (ensures : action.Ensures w returns raises)
    {value : α} {after : World} (ends : action.run w = .ok value after) :
    returns value after := by
  simpa only [Ensures, ends] using ensures

theorem Ensures.of_error {action : Action α} (ensures : action.Ensures w returns raises)
    {failure : Failure} {after : World} (ends : action.run w = .error failure after) :
    raises failure after := by
  simpa only [Ensures, ends] using ensures

theorem Ensures.mono {action : Action α} {returns' : α → World → Prop}
    {raises' : Failure → World → Prop} (ensures : action.Ensures w returns raises)
    (returned : ∀ value after, returns value after → returns' value after)
    (raised : ∀ failure after, raises failure after → raises' failure after) :
    action.Ensures w returns' raises' := by
  unfold Ensures at *
  cases ends : action.run w with
  | ok value after => exact returned _ _ (by simpa only [ends] using ensures)
  | error failure after => exact raised _ _ (by simpa only [ends] using ensures)

theorem Ensures.and {action : Action α} {returns' : α → World → Prop}
    {raises' : Failure → World → Prop} (first : action.Ensures w returns raises)
    (second : action.Ensures w returns' raises') :
    action.Ensures w (fun value after => returns value after ∧ returns' value after)
      (fun failure after => raises failure after ∧ raises' failure after) := by
  unfold Ensures at *
  cases ends : action.run w with
  | ok value after =>
    rw [ends] at first second
    exact ⟨first, second⟩
  | error failure after =>
    rw [ends] at first second
    exact ⟨first, second⟩

/-- An action ends as it should, and as it does. -/
theorem Ensures.with_run {action : Action α} (ensures : action.Ensures w returns raises) :
    action.Ensures w
      (fun value after => action.run w = .ok value after ∧ returns value after)
      (fun failure after => action.run w = .error failure after ∧ raises failure after) := by
  unfold Ensures at *
  cases ends : action.run w with
  | ok value after =>
    rw [ends] at ensures
    exact ⟨rfl, ensures⟩
  | error failure after =>
    rw [ends] at ensures
    exact ⟨rfl, ensures⟩

@[simp]
theorem ensures_pure {value : α} :
    (pure value : Action α).Ensures w returns raises ↔ returns value w :=
  Iff.rfl

@[simp]
theorem ensures_throw {failure : Failure} :
    (throw failure : Action α).Ensures w returns raises ↔ raises failure w :=
  Iff.rfl

@[simp]
theorem ensures_get {returns : World → World → Prop} :
    (get : Action World).Ensures w returns raises ↔ returns w w :=
  Iff.rfl

@[simp]
theorem ensures_modify {change : World → World} {returns : Unit → World → Prop} :
    (modify change : Action Unit).Ensures w returns raises ↔ returns () (change w) :=
  Iff.rfl

@[simp]
theorem ensures_modifyGet {change : World → α × World} :
    (modifyGet change : Action α).Ensures w returns raises ↔
      returns (change w).1 (change w).2 :=
  Iff.rfl

@[simp]
theorem ensures_bind {action : Action α} {next : α → Action β}
    {returns : β → World → Prop} :
    (action >>= next).Ensures w returns raises ↔
      action.Ensures w (fun value after => (next value).Ensures after returns raises) raises := by
  unfold Ensures
  simp only [EStateM.run_bind]
  cases action.run w <;> rfl

/-- What an action raises, if it does not return. -/
def failure? (action : Action α) (w : World) : Option Failure :=
  match action.run w with
  | .ok _ _ => none
  | .error failure _ => some failure

theorem run_of_failure? {action : Action α} {failure : Failure}
    (raises : action.failure? w = some failure) : ∃ v, action.run w = .error failure v := by
  unfold failure? at raises
  cases ends : action.run w with
  | ok value v =>
    rw [ends] at raises
    cases raises
  | error failure' v =>
    rw [ends] at raises
    cases raises
    exact ⟨v, rfl⟩

/-- A sequence ends where its first part fails. -/
theorem run_bind_error {action : Action α} {failure : Failure} {v : World}
    (raises : action.run w = .error failure v) (next : α → Action β) :
    (action >>= next).run w = .error failure v := by
  rw [EStateM.run_bind, raises]

/-- A sequence returns if both of its parts do. -/
theorem run_bind_eq_ok {action : Action α} {next : α → Action β} {value : β} {v : World} :
    (action >>= next).run w = .ok value v ↔
      ∃ first u, action.run w = .ok first u ∧ (next first).run u = .ok value v := by
  rw [EStateM.run_bind]
  cases action.run w with
  | error failure u => simp
  | ok first u =>
    constructor
    · intro returns
      exact ⟨first, u, rfl, returns⟩
    · intro returns
      obtain ⟨_, _, same, returns⟩ := returns
      cases same
      exact returns

/-- An action that returns is not handled. -/
theorem run_tryCatch_ok {action : Action α} {handler : Failure → Action α} {value : α}
    {after : World} (ends : action.run w = .ok value after) :
    (tryCatch action handler).run w = .ok value after := by
  change EStateM.tryCatch action handler w = _
  delta EStateM.tryCatch
  rw [show action w = _ from ends]

theorem run_tryCatch_error {action : Action α} {handler : Failure → Action α} {failure : Failure}
    {after : World} (ends : action.run w = .error failure after) :
    (tryCatch action handler).run w = (handler failure).run after := by
  change EStateM.tryCatch action handler w = _
  delta EStateM.tryCatch
  rw [show action w = _ from ends]
  rfl

@[simp]
theorem ensures_tryCatch {action : Action α} {handler : Failure → Action α} :
    (tryCatch action handler).Ensures w returns raises ↔
      action.Ensures w returns
        (fun failure after => (handler failure).Ensures after returns raises) := by
  unfold Ensures
  cases ends : action.run w with
  | ok value after => rw [run_tryCatch_ok ends]
  | error failure after => rw [run_tryCatch_error ends]

@[simp]
theorem ensures_ite {condition : Prop} [Decidable condition] {first second : Action α} :
    (if condition then first else second).Ensures w returns raises ↔
      (condition → first.Ensures w returns raises) ∧
        (¬condition → second.Ensures w returns raises) := by
  by_cases holds : condition <;> simp [holds]

/-- What is left to do decides what holds between the turns of a loop. -/
theorem ensures_foldlM {γ : Type} {step : γ → β → Action γ}
    (holds : List β → γ → World → Prop)
    (each : ∀ item rest sum w, holds (item :: rest) sum w →
      (step sum item).Ensures w (fun next v => holds rest next v) raises)
    {items : List β} {sum : γ} (starts : holds items sum w) :
    (items.foldlM step sum).Ensures w (fun last v => holds [] last v) raises := by
  induction items generalizing sum w with
  | nil => exact starts
  | cons item rest ih =>
    rw [List.foldlM_cons, ensures_bind]
    exact (each item rest sum w starts).mono (fun _ _ onward => ih onward) fun _ _ raised => raised

theorem ensures_mapM {step : β → Action α} (holds : List β → World → Prop)
    (each : ∀ item rest w, holds (item :: rest) w →
      (step item).Ensures w (fun _ v => holds rest v) raises)
    {items : List β} (starts : holds items w) :
    (items.mapM step).Ensures w (fun _ v => holds [] v) raises := by
  induction items generalizing w with
  | nil => exact starts
  | cons item rest ih =>
    rw [List.mapM_cons, ensures_bind]
    refine (each item rest w starts).mono ?_ fun _ _ raised => raised
    intro value v onward
    rw [ensures_bind]
    exact (ih onward).mono (fun _ _ done => done) fun _ _ raised => raised

/-- What a list of steps returns, where each returns a value that its item tells. -/
theorem ensures_mapM_map {step : β → Action α} {value : β → α}
    (each : ∀ item w, (step item).Ensures w (fun result _ => result = value item)
      (fun _ _ => True)) (items : List β) (w : World) :
    (items.mapM step).Ensures w (fun results _ => results = items.map value)
      (fun _ _ => True) := by
  induction items generalizing w with
  | nil => exact rfl
  | cons item rest ih =>
    rw [List.mapM_cons, ensures_bind]
    refine (each item w).mono ?_ fun _ _ _ => trivial
    rintro _ v rfl
    rw [ensures_bind]
    refine (ih v).mono ?_ fun _ _ _ => trivial
    rintro _ _ rfl
    rfl

/-- An action started in one world ends in another, whether it returns or raises a failure. -/
def EndsIn (action : Action α) (w v : World) : Prop :=
  (∃ value, action.run w = .ok value v) ∨ ∃ failure, action.run w = .error failure v

/-- The value and the world with which an action returns, if it does. -/
def returned? (action : Action α) (w : World) : Option (α × World) :=
  match action.run w with
  | .ok value v => some (value, v)
  | .error _ _ => none

theorem run_of_returned? {action : Action α} {returned : α × World}
    (returns : action.returned? w = some returned) :
    action.run w = .ok returned.1 returned.2 := by
  unfold returned? at returns
  cases ends : action.run w with
  | ok value u =>
    rw [ends] at returns
    cases returns
    rfl
  | error failure u =>
    rw [ends] at returns
    cases returns

theorem Ensures.of_endsIn {action : Action α} {holds : World → Prop} {v : World}
    (ensures : action.Ensures w (fun _ => holds) fun _ => holds) (ends : action.EndsIn w v) :
    holds v := by
  rcases ends with ⟨value, returned⟩ | ⟨failure, raised⟩
  · exact ensures.of_ok returned
  · exact ensures.of_error raised

/-- However an action ends, the world then stands in a relation to the one before. -/
def Within (rel : World → World → Prop) (action : Action α) : Prop :=
  ∀ w, action.Ensures w (fun _ v => rel w v) (fun _ v => rel w v)

/-- A relation that asking for faults and logging do not leave. -/
class Upkeep (rel : World → World → Prop) : Prop where
  refl : ∀ w, rel w w
  trans : ∀ {w v u}, rel w v → rel v u → rel w u
  tick : ∀ w clock, rel w { w with clock }
  note : ∀ w log, rel w { w with log }

/-- A relation that running programs does not leave either. -/
class Housekeeping (rel : World → World → Prop) : Prop extends Upkeep rel where
  call : ∀ w programs calls, rel w { w with programs, calls }

namespace Within

variable {rel : World → World → Prop} [Upkeep rel]

theorem pure (value : α) : Within rel (pure value) :=
  fun w => Upkeep.refl w

theorem throw (failure : Failure) : Within rel (throw failure : Action α) :=
  fun w => Upkeep.refl w

theorem get : Within rel (get : Action World) :=
  fun w => Upkeep.refl w

theorem bind {action : Action α} {next : α → Action β} (first : Within rel action)
    (second : ∀ value, Within rel (next value)) : Within rel (action >>= next) := by
  intro w
  rw [ensures_bind]
  refine (first w).mono ?_ fun _ _ same => same
  intro value v same
  exact (second value v).mono (fun _ _ later => Upkeep.trans same later)
    (fun _ _ later => Upkeep.trans same later)

theorem tryCatch {action : Action α} {handler : Failure → Action α} (first : Within rel action)
    (second : ∀ failure, Within rel (handler failure)) : Within rel (tryCatch action handler) := by
  intro w
  rw [ensures_tryCatch]
  refine (first w).mono (fun _ _ same => same) ?_
  intro failure v same
  exact (second failure v).mono (fun _ _ later => Upkeep.trans same later)
    (fun _ _ later => Upkeep.trans same later)

theorem foldlM {γ : Type} {step : γ → β → Action γ} {items : List β}
    (each : ∀ sum item, Within rel (step sum item)) (sum : γ) :
    Within rel (items.foldlM step sum) := by
  induction items generalizing sum with
  | nil => exact .pure sum
  | cons item rest ih =>
    rw [List.foldlM_cons]
    exact (each sum item).bind ih

theorem forM {items : List β} {body : β → Action Unit} (each : ∀ item, Within rel (body item)) :
    Within rel (items.forM body) := by
  induction items with
  | nil => exact .pure ()
  | cons item rest ih => exact (each item).bind fun _ => ih

theorem mapM {items : List β} {step : β → Action α} (each : ∀ item, Within rel (step item)) :
    Within rel (items.mapM step) := by
  induction items with
  | nil => exact .pure []
  | cons item rest ih =>
    rw [List.mapM_cons]
    exact (each item).bind fun _ => ih.bind fun _ => .pure _

omit [Upkeep rel] in
theorem ite {condition : Prop} [Decidable condition] {first second : Action α}
    (yes : Within rel first) (no : Within rel second) :
    Within rel (if condition then first else second) := by
  split
  · exact yes
  · exact no

theorem ofExcept {ε : Type} (wrap : ε → Failure) (result : Except ε α) :
    Within rel (ofExcept wrap result) := by
  cases result with
  | ok value => exact .pure value
  | error e => exact .throw (wrap e)

theorem log (level : Level) (parts : List Text) : Within rel (log level parts) :=
  fun w => Upkeep.note w _

theorem fault? (call : FileCall) : Within rel (fault? call) :=
  fun w => Upkeep.tick w _

theorem shortage? : Within rel shortage? :=
  fun w => Upkeep.tick w _

omit [Upkeep rel] in
theorem runProgram [Housekeeping rel] (command : List Text) (timeout : Option Int) :
    Within rel (runProgram command timeout) :=
  fun w => Housekeeping.call w _ _

end Within

instance : Housekeeping World.Unmoved where
  refl := .refl
  trans := .trans
  tick _ _ := ⟨rfl, rfl, rfl⟩
  note _ _ := ⟨rfl, rfl, rfl⟩
  call _ _ _ := ⟨rfl, rfl, rfl⟩

/-- An action that leaves the tree and the setting as they are, however it ends. -/
abbrev Quiet (action : Action α) : Prop :=
  Within World.Unmoved action

theorem shortage?_ensures (w : World) :
    shortage?.Ensures w (fun shortage v => w.Unmoved v ∧ (w.Roomy → shortage = none))
      (fun _ _ => False) :=
  ⟨⟨rfl, rfl, rfl⟩, fun roomy => roomy w.clock⟩

/-- Logging always returns. -/
theorem log_ensures (w : World) (level : Level) (parts : List Text) :
    (log level parts).Ensures w (fun _ v => w.Unmoved v) (fun _ _ => False) :=
  ⟨rfl, rfl, rfl⟩

/-- A relation that changes of the tree do not leave either. -/
class Reworking (rel : World → World → Prop) : Prop extends Housekeeping rel where
  set : ∀ w place e, rel w (w.change (w.tree.set place e))
  erase : ∀ w place, rel w (w.change (w.tree.erase place))
  move : ∀ w start goal, rel w (w.change (if start = goal then w.tree else w.tree.move start goal))

end Action

end Renewal
