import Renewal.Log.Line
import Renewal.Proofs.Association
import Renewal.Proofs.JsonWriting

/-! # Lines of the log

Under each name a record tells what its failure gives, or else what is known besides, or else what
every record has (`Log.Event.lookup_record`). Its line is one line of printable characters of ASCII,
whatever texts it has, and it is read back as what the record tells (`Log.line_read_back`).
-/

namespace Renewal

namespace Number.Binary

theorem mantissa_ofFloat_lt (x : Float) : (ofFloat x).mantissa < Nat.pow 2 53 := by
  have fraction : x.toBits.toNat % Nat.pow 2 52 < Nat.pow 2 52 := Nat.mod_lt _ (by decide)
  have double : Nat.pow 2 53 = Nat.pow 2 52 + Nat.pow 2 52 := rfl
  rw [double]
  unfold ofFloat
  dsimp only
  split
  · exact Nat.lt_add_left _ fraction
  · exact Nat.add_lt_add_right fraction _

theorem power_ofFloat_le (x : Float) : (ofFloat x).power ≤ 972 := by
  have exponent : x.toBits.toNat / Nat.pow 2 52 % Nat.pow 2 11 < 2048 := Nat.mod_lt _ (by decide)
  unfold ofFloat
  dsimp only
  split
  · decide
  · omega

/-- The whole part is limited by the sizes of mantissa and power. -/
theorem natAbs_truncate_lt {b : Binary} {m p : Nat} (mantissa : b.mantissa < Nat.pow 2 m)
    (power : b.power ≤ p) : b.truncate.natAbs < Nat.pow 2 (m + p) := by
  have whole : b.truncate.natAbs = if 0 ≤ b.power then b.mantissa * Nat.pow 2 b.power.toNat
      else b.mantissa / Nat.pow 2 (-b.power).toNat := by
    unfold truncate
    dsimp only
    split <;> omega
  have magnitude : b.truncate.natAbs ≤ b.mantissa * Nat.pow 2 p := by
    rw [whole]
    split
    · exact Nat.mul_le_mul_left _ (Nat.pow_le_pow_right (by decide) (by omega))
    · exact (Nat.div_le_self _ _).trans (Nat.le_mul_of_pos_right _ (Nat.two_pow_pos p))
  calc b.truncate.natAbs ≤ b.mantissa * Nat.pow 2 p := magnitude
    _ < Nat.pow 2 m * Nat.pow 2 p := Nat.mul_lt_mul_of_pos_right mantissa (Nat.two_pow_pos p)
    _ = Nat.pow 2 (m + p) := (Nat.pow_add 2 m p).symm

end Number.Binary

namespace Log

open Json

variable {e : Event} {requestId name : Text} {f : Text × Value}

/-- A number has no more digits to base ten than to base two. -/
theorem length_toDigits_le {n k limit : Nat} (small : n < Nat.pow 2 k) (some : 0 < limit)
    (limited : k ≤ limit) : (Nat.toDigits 10 n).length ≤ limit := by
  apply (Nat.length_toDigits_le_iff (by decide) some).mpr
  calc n < Nat.pow 2 k := small
    _ ≤ Nat.pow 10 k := Nat.pow_le_pow_left (by decide) k
    _ ≤ Nat.pow 10 limit := Nat.pow_le_pow_right (by decide) limited

/-- The milliseconds of a time are never too long to be read. -/
theorem isShort_milliseconds {seconds : Float} {n : Int} (known : milliseconds seconds = .ok n) :
    IsShort n := by
  unfold milliseconds at known
  dsimp only at known
  split at known
  · cases known
  split at known
  · cases known
  cases known
  have small := Number.Binary.natAbs_truncate_lt
    (Number.Binary.mantissa_ofFloat_lt (seconds * 1000.0))
    (Number.Binary.power_ofFloat_le (seconds * 1000.0))
  exact length_toDigits_le small (by decide) (by decide)

/-! ## What a record tells -/

/-- A value that can be told: a text, an integer that is not too long, a truth value, nothing or a
path. -/
inductive Value.Ordinary : Value → Prop where
  | json {j : Json} (plain : j.Plain) : Ordinary (.json j)
  | path {p : Path} (wellFormed : p.text.WellFormed) : Ordinary (.path p)

/-- A record whose texts are well-formed and whose values can be told; a time gives its
milliseconds. -/
structure Event.Ordinary (e : Event) (requestId : Text) : Prop where
  message : e.message.WellFormed
  time : ∃ seconds, Log.milliseconds seconds = .ok e.milliseconds
  process : e.process.Plain
  request : requestId.WellFormed
  /-- Nothing is known twice under one name. -/
  distinct : (e.extra.map Prod.fst).Nodup
  names : ∀ f ∈ e.extra, f.1.WellFormed
  values : ∀ f ∈ e.extra, f.2.Ordinary
  kind : ∀ f ∈ e.failure, ∀ t ∈ f.kind, t.WellFormed
  reason : ∀ f ∈ e.failure, ∀ t ∈ f.message, t.WellFormed

/-- The field for the failure. -/
def failureField : Text := "err"

/-- What every record has besides the request. -/
def Event.particulars (e : Event) : List (Text × Value) :=
  [("level", .json (.integer (levelNumber e.level))), ("time", .json (.integer e.milliseconds)),
    ("msg", .json (.string e.message)), ("pid", .json e.process)]

/-- What is told of the failure. -/
def Event.failed (e : Event) : List (Text × Value) :=
  e.failure.toList.map fun f => (failureField, .json f.value)

/-- What is known of a record; of several values under one name the first counts. -/
def Event.known (e : Event) (requestId : Text) : List (Text × Value) :=
  e.failed ++ (e.extra ++ (e.particulars ++ [(requestField, .json (.string requestId))]))

/-- The request that a record tells. -/
def Event.request (e : Event) (requestId : Text) : Value :=
  (e.extra.lookup requestField).getD (.json (.string requestId))

/-- What else is known, the request apart. -/
def Event.others (e : Event) : List (Text × Value) :=
  e.extra.filter fun f => f.1 != requestField

theorem Event.record_eq (e : Event) (requestId : Text) :
    e.record requestId =
      Fields.update (Fields.update (e.particulars ++ [(requestField, e.request requestId)])
        e.others) e.failed := by
  unfold record failed
  cases e.failure with
  | none => rfl
  | some f => rfl

theorem Event.names_particulars (e : Event) :
    e.particulars.map Prod.fst = ["level", "time", "msg", "pid"] :=
  rfl

theorem Event.nodup_record (e : Event) (requestId : Text) :
    ((e.record requestId).map Prod.fst).Nodup := by
  rw [record_eq]
  refine Fields.nodup_update (Fields.nodup_update ?_ _) _
  rw [List.map_append, names_particulars]
  change (["level", "time", "msg", "pid", requestField] : List Text).Nodup
  decide

theorem Event.nodup_failed (e : Event) : (e.failed.map Prod.fst).Nodup := by
  unfold failed
  cases e.failure with
  | none => exact List.nodup_nil
  | some f => exact List.nodup_singleton failureField

theorem Event.lookup_particulars (e : Event) : e.particulars.lookup requestField = none := by
  apply Association.lookup_eq_none
  rw [names_particulars]
  decide

/-- The request that a record tells is the one that is known of it. -/
theorem Event.lookup_others (e : Event) (requestId name : Text) :
    (e.others ++ (e.particulars ++ [(requestField, e.request requestId)])).lookup name =
      (e.extra ++ (e.particulars ++ [(requestField, Value.json (.string requestId))])).lookup
        name := by
  have others : e.others.lookup name =
      if (name != requestField) = true then e.extra.lookup name else none :=
    Association.lookup_filter e.extra (· != requestField) name
  simp only [List.lookup_append, others, Association.lookup_cons]
  by_cases isRequest : name = requestField
  · subst isRequest
    rw [if_neg (by simp), if_pos rfl, if_pos rfl, lookup_particulars, request]
    cases e.extra.lookup requestField with
    | none => rfl
    | some value => rfl
  · rw [if_pos (by simp [isRequest]), if_neg isRequest, if_neg isRequest]

/-- Under each name a record tells what its failure gives, or else what is known besides, or else
what every record has. -/
theorem Event.lookup_record (distinct : (e.extra.map Prod.fst).Nodup) (requestId name : Text) :
    (e.record requestId).lookup name = (e.known requestId).lookup name := by
  have distinctOthers : (e.others.map Prod.fst).Nodup :=
    distinct.sublist (List.filter_sublist.map Prod.fst)
  unfold known
  rw [record_eq, Fields.lookup_update _ e.nodup_failed, List.lookup_append, List.lookup_append,
    Fields.lookup_update _ distinctOthers, lookup_others]

/-- All that a record tells is known of it. -/
theorem Event.mem_known (member : f ∈ e.record requestId) : f ∈ e.known requestId := by
  unfold known
  rw [record_eq] at member
  rcases Fields.mem_of_mem_update member with earlier | failed
  · refine List.mem_append_right _ ?_
    rcases Fields.mem_of_mem_update earlier with base | other
    · rcases List.mem_append.mp base with particular | request
      · exact List.mem_append_right _ (List.mem_append_left _ particular)
      · obtain rfl := List.mem_singleton.mp request
        unfold Event.request
        cases found : e.extra.lookup requestField with
        | none => exact List.mem_append_right _ (List.mem_append_right _ List.mem_cons_self)
        | some value =>
          obtain ⟨front, rest, cut, -⟩ := List.lookup_eq_some_iff.mp found
          rw [cut]
          exact List.mem_append_left _ (List.mem_append_right _ List.mem_cons_self)
    · exact List.mem_append_left _ (List.mem_filter.mp other).1
  · exact List.mem_append_left _ failed

/-! ## What a record's line says -/

/-- A field whose name and value can be written and read back. -/
def Lasts (depth : Nat) (f : Text × Value) : Prop :=
  f.1.WellFormed ∧ Storable depth f.2.written

theorem Value.Ordinary.storable {value : Value} (ordinary : value.Ordinary) (depth : Nat) :
    Storable depth value.written := by
  cases ordinary with
  | json plain => exact plain.storable depth
  | path wellFormed => exact (Plain.string wellFormed).storable depth

theorem lasts_plain {j : Json} (named : name.WellFormed) (plain : j.Plain) (depth : Nat) :
    Lasts depth (name, .json j) :=
  ⟨named, plain.storable depth⟩

theorem isShort_levelNumber (name : Text) : IsShort (levelNumber name) := by
  unfold levelNumber
  split <;> decide

theorem wellFormed_getD {text : Option Text} {instead : Text} (given : ∀ t ∈ text, t.WellFormed)
    (otherwise : instead.WellFormed) : (text.getD instead).WellFormed := by
  cases text with
  | none => exact otherwise
  | some t => exact given t rfl

theorem FailureNote.storable {note : FailureNote} (kind : ∀ t ∈ note.kind, t.WellFormed)
    (reason : ∀ t ∈ note.message, t.WellFormed) (depth : Nat) :
    Storable (depth + 1) note.value := by
  have kindText := wellFormed_getD kind (show Text.WellFormed "Error" by decide)
  have reasonText := wellFormed_getD reason (show Text.WellFormed [] by decide)
  have distinct : (["type", "message"] : List Text).Nodup := by decide
  have typeName : Text.WellFormed "type" := by decide
  have messageName : Text.WellFormed "message" := by decide
  refine .inr (.object distinct ?_ ?_)
  · exact List.forall_mem_cons.mpr ⟨typeName, List.forall_mem_singleton.mpr messageName⟩
  · exact List.forall_mem_cons.mpr ⟨(Plain.string kindText).storable depth,
      List.forall_mem_singleton.mpr ((Plain.string reasonText).storable depth)⟩

theorem Event.Ordinary.lasts_particulars (ordinary : e.Ordinary requestId) (depth : Nat)
    (member : f ∈ e.particulars) : Lasts depth f := by
  obtain ⟨seconds, time⟩ := ordinary.time
  simp only [particulars, List.mem_cons, List.not_mem_nil, or_false] at member
  rcases member with rfl | rfl | rfl | rfl
  · exact lasts_plain (by decide) (.integer (isShort_levelNumber e.level)) depth
  · exact lasts_plain (by decide) (.integer (isShort_milliseconds time)) depth
  · exact lasts_plain (by decide) (.string ordinary.message) depth
  · exact lasts_plain (by decide) ordinary.process depth

theorem Event.Ordinary.lasts (ordinary : e.Ordinary requestId) (depth : Nat)
    (member : f ∈ e.known requestId) : Lasts (depth + 1) f := by
  simp only [known, List.mem_append, List.mem_singleton] at member
  rcases member with failed | extra | particular | rfl
  · obtain ⟨note, told, rfl⟩ := List.mem_map.mp failed
    rw [Option.mem_toList] at told
    have named : failureField.WellFormed := by decide
    exact ⟨named, FailureNote.storable (ordinary.kind note told) (ordinary.reason note told) depth⟩
  · exact ⟨ordinary.names f extra, (ordinary.values f extra).storable _⟩
  · exact ordinary.lasts_particulars _ particular
  · exact lasts_plain (by decide) (.string ordinary.request) _

theorem Event.Ordinary.storable_fields (ordinary : e.Ordinary requestId) (depth : Nat) :
    Storable (depth + 2) (.object (e.fields requestId)) := by
  have lasts : ∀ f ∈ e.record requestId, Lasts (depth + 1) f :=
    fun f member => ordinary.lasts depth (mem_known member)
  refine .inr (.object ?_ ?_ ?_)
  · have names : (e.fields requestId).map Prod.fst = (e.record requestId).map Prod.fst := by
      rw [fields, List.map_map]
      rfl
    rw [names]
    exact e.nodup_record requestId
  · rw [fields, List.forall_mem_map]
    exact fun f member => (lasts f member).1
  · rw [fields, List.forall_mem_map]
    exact fun f member => (lasts f member).2

/-- The line of a record is one line of printable characters of ASCII. It is read back as what the
record tells, with paths by their texts: one value for each name, the first that is known. -/
theorem line_read_back (ordinary : e.Ordinary requestId) :
    (∃ body, e.line requestId = body ++ [newline] ∧ ∀ c ∈ body, c.IsPrintable) ∧
      read (e.line requestId) = .ok (.object (e.fields requestId)) ∧
      ((e.record requestId).map Prod.fst).Nodup ∧
      ∀ name, (e.record requestId).lookup name = (e.known requestId).lookup name := by
  have storable : Storable nestingLimit (.object (e.fields requestId)) :=
    ordinary.storable_fields 983
  refine ⟨⟨_, rfl, storable.printable_write⟩, ?_, e.nodup_record requestId,
    Event.lookup_record ordinary.distinct requestId⟩
  exact storable.read_write (List.forall_mem_singleton.mpr rfl)

/-- A record with quotes, ends of lines, a character of two units and a stray byte. -/
def awkward : Event where
  level := "ERROR"
  milliseconds := 1715629847123
  message := .concat ["\"\x7d\n\x7b\\ \x7f", [.ofNat 0x1F600], [.ofNat 0xDCFF]]
  process := .integer 4711
  extra := [("msg", .json (.string "\x7b\"level\": 10\x7d\n")), ("file", .path (.ofText "a\n.sql")),
    (requestField, .json .null), ("done", .json (.bool true)),
    (failureField, .json (.integer (-7)))]
  failure := some ⟨some "OSError", none⟩

theorem line_read_back_awkward :
    awkward.Ordinary "r" ∧ read (awkward.line "r") = .ok (.object (awkward.fields "r")) ∧
      (awkward.record "r").lookup requestField = some (.json .null) ∧
      (awkward.record "r").lookup failureField = some (.json (.object
        [("type", .string "OSError"), ("message", .string [])])) := by
  have ordinary : awkward.Ordinary "r" := by
    constructor
    case message => decide
    case time => exact ⟨1715629847.123, rfl⟩
    case process => exact .integer (by decide)
    case request => decide
    case distinct => decide
    case names => decide
    case values =>
      simp only [awkward, List.forall_mem_cons]
      exact ⟨.json (.string (by decide)), .path (by decide), .json .null, .json (.bool true),
        .json (.integer (by decide)), by simp⟩
    case kind => decide
    case reason => decide
  obtain ⟨-, readBack, -, told⟩ := line_read_back ordinary
  exact ⟨ordinary, readBack, told requestField, told failureField⟩

end Log

end Renewal
