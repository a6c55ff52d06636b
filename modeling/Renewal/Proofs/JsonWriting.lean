import Renewal.Json.Writer
import Renewal.Proofs.Association
import Renewal.Proofs.JsonReading
import Renewal.Proofs.PrintedLines

/-! # Writing JSON documents

Values whose strings are well-formed texts, whose integers are not too long and whose objects name
each field once are `Json.Storable`. What is written for them is read back
(`Json.Storable.read_write`), and it is made of printable characters of ASCII
(`Json.Storable.printable_write`).
-/

namespace Renewal

/-- A text of characters and of surrogates that stand for bytes; it has no other surrogates. -/
def Text.WellFormed (t : Text) : Prop :=
  ∀ c ∈ t, c.isSurrogate = false ∨ c.byte?.isSome = true

instance (t : Text) : Decidable t.WellFormed :=
  inferInstanceAs (Decidable (∀ c ∈ t, _))

/-- The characters of ASCII that are no controls. -/
def CodePoint.IsPrintable (c : CodePoint) : Prop :=
  0x20 ≤ c.code ∧ c.code < 0x7F

instance (c : CodePoint) : Decidable c.IsPrintable :=
  inferInstanceAs (Decidable (_ ∧ _))

theorem CodePoint.ofNat_code (c : CodePoint) : .ofNat c.code = c := by
  rw [ofNat, dif_pos c.code_lt]

namespace Json

variable {α : Type} {c : CodePoint} {m s t : Text} {n depth : Nat} {j : Json}

/-! ## Escapes by number -/

/-- A digit as it is written, to base sixteen. -/
def hexDigit (n : Nat) : CodePoint :=
  Nat.digitChar n

theorem hexDigit?_hexDigit : ∀ n < 16, (hexDigit n).hexDigit? = some n := by
  decide

theorem hexNumber_concat {d : Nat} (value : hexNumber s = some n) (digit : c.hexDigit? = some d) :
    hexNumber (s ++ [c]) = some (16 * n + d) := by
  obtain ⟨ds, digits, rfl⟩ := Option.map_eq_some_iff.mp value
  rw [hexNumber, List.mapM_append, digits]
  simp [digit]

/-- Zeros in front of a number make no difference. -/
theorem hexNumber_zeros (count : Nat) (t : Text) :
    hexNumber (List.replicate count ('0' : CodePoint) ++ t) = hexNumber t := by
  induction count with
  | zero => rfl
  | succ count ih =>
    rw [List.replicate_succ, List.cons_append, hexNumber, List.mapM_cons, ← ih]
    unfold hexNumber
    cases List.mapM CodePoint.hexDigit? (List.replicate count ('0' : CodePoint) ++ t) with
    | none => rfl
    | some ds => rfl

/-- The digits that are written for a number denote it. -/
theorem hexNumber_toDigits (n : Nat) :
    hexNumber ((Nat.toDigits 16 n).map CodePoint.ofChar) = some n := by
  induction n using Nat.strong_induction_on with
  | _ n ih =>
    rw [Nat.toDigits_eq_if (by decide)]
    split
    · rename_i small
      have digit := hexNumber_concat (s := []) (n := 0) rfl (hexDigit?_hexDigit n small)
      rwa [Nat.mul_zero, Nat.zero_add] at digit
    · rename_i large
      rw [List.map_append]
      have digit := hexDigit?_hexDigit (n % 16) (Nat.mod_lt n (by decide))
      have value := hexNumber_concat (ih (n / 16) (by omega)) digit
      rwa [Nat.div_add_mod] at value

theorem hexNumber_hex (width n : Nat) : hexNumber (.hex width n) = some n :=
  (hexNumber_zeros _ _).trans (hexNumber_toDigits n)

theorem denotes_hex (small : n < 0x10000) : Denotes (.hex 4 n) n := by
  have short : (Nat.toDigits 16 n).length ≤ 4 :=
    (Nat.length_toDigits_le_iff (by decide) (by decide)).mpr small
  refine ⟨?_, hexNumber_hex 4 n⟩
  rw [Text.hex, List.length_append, List.length_replicate, List.length_map]
  omega

theorem isPrintable_of_hexDigit? (digit : c.hexDigit?.isSome = true) : c.IsPrintable := by
  revert digit
  simp only [CodePoint.hexDigit?, CodePoint.between, CodePoint.IsPrintable]
  grind

theorem hexDigit?_of_hexNumber (value : hexNumber s = some n) :
    ∀ c ∈ s, c.hexDigit?.isSome = true := by
  obtain ⟨ds, digits, -⟩ := Option.map_eq_some_iff.mp value
  clear value
  induction s generalizing ds with
  | nil => intro c member; cases member
  | cons d rest ih =>
    rw [List.mapM_cons] at digits
    obtain ⟨first, read, others⟩ := Option.bind_eq_some_iff.mp digits
    obtain ⟨more, later, -⟩ := Option.bind_eq_some_iff.mp others
    exact List.forall_mem_cons.mpr ⟨by rw [read]; rfl, ih more later⟩

theorem numbered_eq (n : Nat) : numbered n = escape (.hex 4 n) := by
  change escape (Text.hex 4 n ++ []) = _
  rw [List.append_nil]

theorem isPrintable_of_mem_numbered (member : c ∈ numbered n) : c.IsPrintable := by
  rw [numbered_eq, escape, List.mem_cons, List.mem_cons] at member
  rcases member with rfl | rfl | digit
  · decide
  · decide
  · exact isPrintable_of_hexDigit? (hexDigit?_of_hexNumber (hexNumber_hex 4 n) c digit)

/-! ## Strings -/

/-- A code point that is written by a letter. -/
theorem spells_letter {d : CodePoint} (known : letterCode? d = some (.ofNat n)) (code : c.code = n)
    (spells : Spells s m) : Spells (('\\' : CodePoint) :: d :: s) (c :: m) := by
  rw [← code, CodePoint.ofNat_code] at known
  exact .letter known spells

/-- A code point that is written by number. -/
theorem spells_numbered (small : c.code < 0x10000) (notHigh : ¬IsHigh c.code)
    (spells : Spells s m) : Spells (numbered c.code ++ s) (c :: m) := by
  have spelled := Spells.number (denotes_hex small) (fun joins => notHigh joins.1) spells
  rwa [CodePoint.ofNat_code, ← numbered_eq] at spelled

/-- A code point that is written by the numbers of two surrogates. -/
theorem spells_surrogates (large : 0x10000 ≤ c.code) (spells : Spells s m) :
    Spells (numbered (0xD800 + (c.code - 0x10000) / 0x400) ++
      numbered (0xDC00 + (c.code - 0x10000) % 0x400) ++ s) (c :: m) := by
  have within := c.code_lt
  have high : IsHigh (0xD800 + (c.code - 0x10000) / 0x400) := by
    unfold IsHigh
    omega
  have low : IsLow (0xDC00 + (c.code - 0x10000) % 0x400) := by
    unfold IsLow
    omega
  have joined : joinSurrogates (0xD800 + (c.code - 0x10000) / 0x400)
      (0xDC00 + (c.code - 0x10000) % 0x400) = c.code := by
    unfold joinSurrogates
    omega
  have spelled := Spells.pair (denotes_hex (by omega)) high (denotes_hex (by omega)) low spells
  rwa [joined, CodePoint.ofNat_code, ← numbered_eq, ← numbered_eq, ← List.append_assoc] at spelled

theorem not_isHigh (wellFormed : c.isSurrogate = false ∨ c.byte?.isSome = true) :
    ¬IsHigh c.code := by
  intro high
  unfold IsHigh at high
  rcases wellFormed with scalar | stray
  · simp only [CodePoint.isSurrogate, Bool.and_eq_false_iff, decide_eq_false_iff_not] at scalar
    omega
  · unfold CodePoint.byte? at stray
    split at stray
    · omega
    · cases stray

/-- What is written for a code point spells it. -/
theorem spells_writeCode (wellFormed : c.isSurrogate = false ∨ c.byte?.isSome = true)
    (spells : Spells s m) : Spells (writeCode c ++ s) (c :: m) := by
  unfold writeCode
  dsimp only
  split
  · rename_i quoted
    rcases quoted with rfl | rfl
    · exact .letter rfl spells
    · exact .letter rfl spells
  rename_i unquoted
  split
  · exact spells_letter (d := 'n') rfl ‹_› spells
  split
  · exact spells_letter (d := 'r') rfl ‹_› spells
  split
  · exact spells_letter (d := 't') rfl ‹_› spells
  split
  · exact spells_letter (d := 'f') rfl ‹_› spells
  split
  · exact spells_letter (d := 'b') rfl ‹_› spells
  split
  · rename_i printable
    exact .plain printable.1 (fun quote => unquoted (.inl quote))
      (fun backslash => unquoted (.inr backslash)) spells
  split
  · rename_i small
    exact spells_numbered small (not_isHigh wellFormed) spells
  · rename_i large
    exact spells_surrogates (Nat.le_of_not_lt large) spells

theorem spells_flatMap_writeCode (wellFormed : t.WellFormed) : Spells (t.flatMap writeCode) t := by
  induction t with
  | nil => exact .nil
  | cons c rest ih =>
    obtain ⟨here, later⟩ := List.forall_mem_cons.mp wellFormed
    rw [List.flatMap_cons]
    exact spells_writeCode here (ih later)

theorem isPrintable_of_mem_writeCode {d : CodePoint} (member : d ∈ writeCode c) :
    d.IsPrintable := by
  unfold writeCode at member
  dsimp only at member
  split at member
  · rename_i quoted
    revert d
    rcases quoted with rfl | rfl <;> decide
  have letters : ∀ text ∈ [("\\n" : Text), "\\r", "\\t", "\\f", "\\b"],
      ∀ d ∈ text, d.IsPrintable := by
    decide
  split at member
  · exact letters _ (by simp) d member
  split at member
  · exact letters _ (by simp) d member
  split at member
  · exact letters _ (by simp) d member
  split at member
  · exact letters _ (by simp) d member
  split at member
  · exact letters _ (by simp) d member
  split at member
  · rename_i printable
    obtain rfl := List.mem_singleton.mp member
    exact printable
  split at member
  · exact isPrintable_of_mem_numbered member
  · rcases List.mem_append.mp member with high | low
    · exact isPrintable_of_mem_numbered high
    · exact isPrintable_of_mem_numbered low

/-- Strings are written in printable characters. -/
theorem isPrintable_of_mem_writeString (member : c ∈ writeString t) : c.IsPrintable := by
  rw [writeString, List.cons_append, List.mem_cons, List.mem_append, List.mem_flatMap,
    List.mem_singleton] at member
  rcases member with rfl | ⟨d, -, inside⟩ | rfl
  · decide
  · exact isPrintable_of_mem_writeCode inside
  · decide

theorem simple_writeString {allowed : Numeral → Prop} (wellFormed : t.WellFormed) :
    Simple allowed (.string t) (writeString t) :=
  .string (spells_flatMap_writeCode wellFormed)

/-! ## Integers -/

/-- An integer has no more digits than are read. -/
def IsShort (n : Int) : Prop :=
  (Nat.toDigits 10 n.natAbs).length ≤ Integer.digitLimit

instance (n : Int) : Decidable (IsShort n) :=
  inferInstanceAs (Decidable (_ ≤ _))

theorem ofNat_concat {n : Nat} (large : 10 ≤ n) :
    Text.ofNat n = Text.ofNat (n / 10) ++ [hexDigit (n % 10)] := by
  unfold Text.ofNat
  rw [Nat.toDigits_of_base_le (by decide) large, List.map_append]
  rfl

theorem ofNat_ne_nil (n : Nat) : Text.ofNat n ≠ [] := by
  simp [Text.ofNat]

/-- A zero in front of a numeral is all of it. -/
theorem lead_ofNat (n : Nat) (zero : (Text.ofNat n).head? = some ('0' : CodePoint)) :
    Text.ofNat n = [('0' : CodePoint)] := by
  induction n using Nat.strong_induction_on with
  | _ n ih =>
    by_cases small : n < 10
    · unfold Text.ofNat at zero ⊢
      rw [Nat.toDigits_of_lt_base small] at zero ⊢
      simpa using zero
    · rw [ofNat_concat (by omega), List.head?_append_of_ne_nil _ (ofNat_ne_nil _)] at zero
      have value := Text.ofDigits_ofNat (n / 10)
      rw [ih (n / 10) (by omega) zero] at value
      have none : n / 10 = 0 := value.symm
      omega

theorem allDigits_ofNat (n : Nat) : (Text.ofNat n).AllDigits :=
  fun _ => Text.isAsciiDigit_of_mem_ofNat

/-- The numeral that is written for an integer. -/
def numeral (n : Int) : Numeral where
  negative := n < 0
  whole := .ofNat n.natAbs
  fraction := []
  exponent := []
  written := ofNat_ne_nil n.natAbs
  digits := allDigits_ofNat n.natAbs
  lead := lead_ofNat n.natAbs
  isFraction := .inl rfl
  isExponent := .inl rfl

theorem text_numeral (n : Int) : (numeral n).text = .ofInt n := by
  cases n with
  | ofNat n => simp [Numeral.text, numeral, Text.ofInt]
  | negSucc n => simp [Numeral.text, numeral, Text.ofInt]

theorem json_numeral (n : Int) : (numeral n).json = .integer n := by
  rw [Numeral.json, if_pos ⟨rfl, rfl⟩]
  simp only [numeral, Text.ofDigits_ofNat, decide_eq_true_eq]
  congr 1
  omega

theorem simple_ofInt {n : Int} (short : IsShort n) :
    Simple (fun n => ¬n.Long) (.integer n) (.ofInt n) := by
  rw [← json_numeral, ← text_numeral]
  refine .number fun long => ?_
  have many : Integer.digitLimit < (Text.ofNat n.natAbs).length := long.2
  rw [Text.ofNat, List.length_map] at many
  exact Nat.not_lt_of_le short many

theorem isPrintable_of_isAsciiDigit (digit : c.isAsciiDigit = true) : c.IsPrintable := by
  have within := CodePoint.code_of_isAsciiDigit digit
  unfold CodePoint.IsPrintable
  omega

theorem isPrintable_of_mem_ofInt {n : Int} (member : c ∈ Text.ofInt n) : c.IsPrintable := by
  cases n with
  | ofNat n => exact isPrintable_of_isAsciiDigit (Text.isAsciiDigit_of_mem_ofNat member)
  | negSucc n =>
    rcases List.mem_cons.mp member with rfl | digit
    · decide
    · exact isPrintable_of_isAsciiDigit (Text.isAsciiDigit_of_mem_ofNat digit)

/-! ## Values -/

/-- A value without parts that can be written and read back. -/
inductive Plain : Json → Prop where
  | null : Plain .null
  | bool (b : Bool) : Plain (.bool b)
  | integer {n : Int} (short : IsShort n) : Plain (.integer n)
  | string {t : Text} (wellFormed : t.WellFormed) : Plain (.string t)

/-- An array or an object that can be written and read back if its parts can. -/
inductive Compound (inner : Json → Prop) : Json → Prop where
  | list {items : List Json} (each : ∀ j ∈ items, inner j) : Compound inner (.list items)
  | object {fields : Fields} (distinct : (fields.map Prod.fst).Nodup)
      (named : ∀ f ∈ fields, f.1.WellFormed) (each : ∀ f ∈ fields, inner f.2) :
      Compound inner (.object fields)

/-- A value with arrays and objects nested at most so deep that can be written and read back. -/
def Storable : (depth : Nat) → Json → Prop
  | 0, j => j.Plain
  | depth + 1, j => j.Plain ∨ j.Compound (Storable depth)

theorem Plain.storable (plain : j.Plain) (depth : Nat) : Storable depth j := by
  cases depth with
  | zero => exact plain
  | succ depth => exact .inl plain

theorem Plain.simple (plain : j.Plain) : Simple (fun n => ¬n.Long) j j.write := by
  cases plain with
  | null =>
    have known : ("null", Json.null) ∈ wordValues := by simp [wordValues]
    exact .word known
  | bool b =>
    have known : (if b then "true" else "false", Json.bool b) ∈ wordValues := by
      cases b <;> simp [wordValues]
    cases b with
    | true => exact .word known
    | false => exact .word known
  | integer short => exact simple_ofInt short
  | string wellFormed => exact simple_writeString wellFormed

theorem Plain.printable_write (plain : j.Plain) : ∀ c ∈ j.write, c.IsPrintable := by
  cases plain with
  | null => decide
  | bool b => cases b <;> decide
  | integer short => exact fun c => isPrintable_of_mem_ofInt
  | string wellFormed => exact fun c => isPrintable_of_mem_writeString

/-- The text of a field. -/
def writeField (f : Text × Json) : Text :=
  .concat [writeString f.1, ": ", f.2.write]

theorem writeField_eq (f : Text × Json) :
    writeField f = ('"' : CodePoint) :: (f.1.flatMap writeCode ++ ('"' : CodePoint) ::
      ((':' : CodePoint) :: ([(' ' : CodePoint)] ++ f.2.write))) := by
  have space : (": " : Text) = [(':' : CodePoint), (' ' : CodePoint)] := rfl
  simp [writeField, writeString, Text.concat, space]

theorem writeItems_eq_map (items : List Json) : writeItems items = items.map write := by
  induction items with
  | nil => rfl
  | cons j rest ih => rw [writeItems, ih, List.map_cons]

theorem writeFields_eq_map (fields : Fields) : writeFields fields = fields.map writeField := by
  induction fields with
  | nil => rfl
  | cons f rest ih =>
    obtain ⟨name, j⟩ := f
    rw [writeFields, ih, List.map_cons]
    rfl

theorem write_list (items : List Json) :
    (Json.list items).write = ('[' : CodePoint) ::
      (Text.joinWith ", " (items.map write) ++ [(']' : CodePoint)]) := by
  rw [write, writeItems_eq_map]
  rfl

theorem write_object (fields : Fields) :
    (Json.object fields).write = ('\x7b' : CodePoint) ::
      (Text.joinWith ", " (fields.map writeField) ++ [('\x7d' : CodePoint)]) := by
  rw [write, writeFields_eq_map]
  rfl

theorem isGap_nil : IsGap [] :=
  fun _ member => nomatch member

theorem isGap_space : IsGap [(' ' : CodePoint)] :=
  List.forall_mem_singleton.mpr rfl

/-- Parts that are written one by one make a series. -/
theorem series_joinWith {part : α → Text → Prop} {as : List α} {text : α → Text} (some : as ≠ [])
    (each : ∀ a ∈ as, part a (text a)) : Series part as (Text.joinWith ", " (as.map text)) := by
  induction as with
  | nil => exact absurd rfl some
  | cons a rest ih =>
    obtain ⟨here, later⟩ := List.forall_mem_cons.mp each
    cases rest with
    | nil =>
      have last := Series.last here isGap_nil
      rw [List.append_nil] at last
      simpa [Text.joinWith] using last
    | cons b rest =>
      have others := ih (List.cons_ne_nil b rest) later
      rw [List.map_cons, List.map_cons, Text.joinWith_cons]
      exact Series.more here isGap_nil isGap_space others

theorem Compound.composed {inner : Json → Prop} {written : Json → Text → Prop}
    (writes : ∀ j, inner j → written j j.write) (compound : j.Compound inner) :
    Composed written j j.write := by
  cases compound with
  | @list items each =>
    rw [write_list]
    by_cases none : items = []
    · subst none
      exact .noItems isGap_nil
    · have items := series_joinWith none fun j member => writes j (each j member)
      exact Composed.array isGap_nil items
  | @object fields distinct named each =>
    rw [write_object]
    by_cases none : fields = []
    · subst none
      exact .noFields isGap_nil
    · have field : ∀ f ∈ fields, Field written f (writeField f) := by
        intro f member
        have spells := spells_flatMap_writeCode (named f member)
        rw [writeField_eq]
        exact Field.mk spells isGap_nil isGap_space (writes f.2 (each f member))
      have object := Composed.object isGap_nil (series_joinWith none field)
      rw [Fields.ofList_of_nodup distinct] at object
      exact object

/-- What is written for a value is one. -/
theorem Storable.writes (storable : Storable depth j) :
    Writes (fun n => ¬n.Long) depth j j.write := by
  induction depth generalizing j with
  | zero => exact Plain.simple storable
  | succ depth ih =>
    rcases storable with plain | compound
    · exact .inl plain.simple
    · exact .inr (compound.composed fun j => ih)

/-- A value is written and read back, with white space after it. -/
theorem Storable.read_write {gap : Text} (storable : Storable nestingLimit j) (isGap : IsGap gap) :
    read (j.write ++ gap) = .ok j :=
  read_eq_ok_iff.mpr ⟨[], j.write, gap, rfl, isGap_nil, isGap, storable.writes⟩

theorem isPrintable_of_mem_joinWith {text : α → Text} {as : List α}
    (each : ∀ a ∈ as, ∀ c ∈ text a, c.IsPrintable)
    (member : c ∈ Text.joinWith ", " (as.map text)) : c.IsPrintable := by
  have separator : ∀ c ∈ (", " : Text), c.IsPrintable := by decide
  rcases Text.mem_of_mem_joinWith member with between | ⟨part, among, inside⟩
  · exact separator c between
  · obtain ⟨a, listed, rfl⟩ := List.mem_map.mp among
    exact each a listed c inside

theorem Compound.printable_write {inner : Json → Prop}
    (printable : ∀ j, inner j → ∀ c ∈ j.write, c.IsPrintable) (compound : j.Compound inner) :
    ∀ c ∈ j.write, c.IsPrintable := by
  intro c member
  cases compound with
  | list each =>
    rw [write_list, List.mem_cons, List.mem_append, List.mem_singleton] at member
    rcases member with rfl | inside | rfl
    · decide
    · exact isPrintable_of_mem_joinWith (fun j among => printable j (each j among)) inside
    · decide
  | @object fields distinct named each =>
    have field : ∀ f ∈ fields, ∀ c ∈ writeField f, c.IsPrintable := by
      intro f among c member
      have colon : ∀ c ∈ (": " : Text), c.IsPrintable := by decide
      simp only [writeField, Text.concat, List.flatten_cons, List.flatten_nil, List.append_nil,
        List.mem_append] at member
      rcases member with name | between | value
      · exact isPrintable_of_mem_writeString name
      · exact colon c between
      · exact printable f.2 (each f among) c value
    rw [write_object, List.mem_cons, List.mem_append, List.mem_singleton] at member
    rcases member with rfl | inside | rfl
    · decide
    · exact isPrintable_of_mem_joinWith field inside
    · decide

/-- A value is written in printable characters, so it takes one line. -/
theorem Storable.printable_write (storable : Storable depth j) :
    ∀ c ∈ j.write, c.IsPrintable := by
  induction depth generalizing j with
  | zero => exact Plain.printable_write storable
  | succ depth ih =>
    rcases storable with plain | compound
    · exact plain.printable_write
    · exact compound.printable_write fun j => ih

end Json

end Renewal
