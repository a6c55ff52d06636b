import Mathlib.Data.List.Infix
import Mathlib.Tactic.Common
import Renewal.Text.Encoding

/-! # Reading bytes and writing them again

Bytes that are read as a text and written again are the same bytes, whether they are valid UTF-8 or
not (`Encoding.nameBytes_decode`): a character is written as the bytes it was read from, and a byte
of no character as itself. Characters that are written are read again as they were, behind whatever
bytes (`Encoding.decode_append_nameBytes`). Bytes below 0x80 stand for themselves in both
directions. Where reading has to be strict, it succeeds just if the bytes write characters
(`Utf8.decodeStrict_eq_ok_iff`).
-/

namespace Renewal

namespace Utf8

variable {a b x : UInt8} {rest more : Bytes} {c : CodePoint} {count : Nat}

/-- What follows bytes without a continuation byte in front does not change how they are read. -/
theorem front_append (a : UInt8) (rest more : Bytes) (stops : isTail x = false) :
    (∃ c count, front a rest = .character c count ∧
      front a (rest ++ x :: more) = .character c count) ∨
    ∃ n m reason reason', front a rest = .invalid n reason ∧
      front a (rest ++ x :: more) = .invalid m reason' := by
  have notSecond : isSecondOfThree a x = false ∧ isSecondOfFour a x = false := by
    simp [isSecondOfThree, isSecondOfFour, stops]
  unfold front
  by_cases one : a < 0x80
  · simp [one]
  by_cases bad : a < 0xC2
  · simp [one, bad]
  by_cases two : a < 0xE0
  · rcases rest with _ | ⟨b, rest⟩
    · simp [one, bad, two, stops, truncated, broken]
    · by_cases tail : isTail b <;> simp [one, bad, two, tail, broken]
  by_cases three : a < 0xF0
  · rcases rest with _ | ⟨b, _ | ⟨c, rest⟩⟩
    · cases more <;> simp [one, bad, two, three, notSecond, truncated, broken]
    · by_cases second : isSecondOfThree a b <;>
        simp [one, bad, two, three, second, stops, truncated, broken]
    · by_cases second : isSecondOfThree a b <;> by_cases third : isTail c <;>
        simp [one, bad, two, three, second, third, broken]
  by_cases four : a < 0xF5
  · rcases rest with _ | ⟨b, _ | ⟨c, _ | ⟨d, rest⟩⟩⟩
    · rcases more with _ | ⟨_, _ | ⟨_, _⟩⟩ <;>
        simp [one, bad, two, three, four, notSecond, truncated, broken]
    · by_cases second : isSecondOfFour a b <;> cases more <;>
        simp [one, bad, two, three, four, second, stops, truncated, broken]
    · by_cases second : isSecondOfFour a b <;> by_cases third : isTail c <;>
        simp [one, bad, two, three, four, second, third, stops, truncated, broken]
    · by_cases second : isSecondOfFour a b <;> by_cases third : isTail c <;>
        by_cases fourth : isTail d <;>
        simp [one, bad, two, three, four, second, third, fourth, broken]
  · simp [one, bad, two, three, four]

theorem front_invalid {reason : Text} (fails : front a rest = .invalid count reason) :
    0x80 ≤ a.toNat := by
  unfold front at fails
  by_cases small : a < 0x80
  · simp [small] at fails
  · exact Nat.le_of_not_lt fun less => small (UInt8.lt_iff_toNat_lt.mpr less)

theorem isTail_iff : isTail b = true ↔ 0x80 ≤ b.toNat ∧ b.toNat ≤ 0xBF := by
  simp [isTail, UInt8.le_iff_toNat_le]

theorem encodeOne_ofNat {n : Nat} (small : n < 0x110000) (scalar : n < 0xD800 ∨ 0xDFFF < n) :
    encodeOne (.ofNat n) = some (bytesOf ⟨n, small⟩) := by
  have notSurrogate : CodePoint.isSurrogate ⟨n, small⟩ = false := by
    simp [CodePoint.isSurrogate]
    omega
  simp [encodeOne, CodePoint.ofNat, small, notSurrogate]

theorem ofNat_eq_of_toNat {n : Nat} (same : n = a.toNat) : UInt8.ofNat n = a := by
  rw [same, UInt8.ofNat_toNat]

theorem encodeOne_one (one : a.toNat < 0x80) : encodeOne (.ofNat a.toNat) = some [a] := by
  rw [encodeOne_ofNat (by omega) (by omega)]
  simp [bytesOf, one]

theorem encodeOne_two {n : Nat} (low : 0xC2 ≤ a.toNat) (high : a.toNat < 0xE0)
    (second : isTail b = true) (number : n = (a.toNat - 0xC0) * 64 + payload b) :
    encodeOne (.ofNat n) = some [a, b] := by
  have tail := isTail_iff.mp second
  unfold payload at number
  rw [encodeOne_ofNat (by omega) (by omega)]
  have bounds : ¬n < 0x80 ∧ n < 0x800 := by omega
  simp only [bytesOf, bounds, ↓reduceIte]
  rw [ofNat_eq_of_toNat (a := a) (by omega), ofNat_eq_of_toNat (a := b) (by omega)]

theorem encodeOne_three {d : UInt8} {n : Nat} (low : 0xE0 ≤ a.toNat) (high : a.toNat < 0xF0)
    (second : isSecondOfThree a b = true) (third : isTail d = true)
    (number : n = ((a.toNat - 0xE0) * 64 + payload b) * 64 + payload d) :
    encodeOne (.ofNat n) = some [a, b, d] := by
  simp only [isSecondOfThree, Bool.and_eq_true, Bool.not_eq_true', Bool.and_eq_false_iff,
    beq_eq_false_iff_ne, ne_eq, decide_eq_false_iff_not, ← UInt8.toNat_inj,
    UInt8.lt_iff_toNat_lt, UInt8.le_iff_toNat_le, isTail_iff, UInt8.reduceToNat] at second
  have tail := isTail_iff.mp third
  unfold payload at number
  rw [encodeOne_ofNat (by omega) (by omega)]
  have bounds : ¬n < 0x80 ∧ ¬n < 0x800 ∧ n < 0x10000 := by omega
  simp only [bytesOf, bounds, ↓reduceIte]
  rw [ofNat_eq_of_toNat (a := a) (by omega), ofNat_eq_of_toNat (a := b) (by omega),
    ofNat_eq_of_toNat (a := d) (by omega)]

theorem encodeOne_four {d e : UInt8} {n : Nat} (low : 0xF0 ≤ a.toNat) (high : a.toNat < 0xF5)
    (second : isSecondOfFour a b = true) (third : isTail d = true) (fourth : isTail e = true)
    (number : n =
      (((a.toNat - 0xF0) * 64 + payload b) * 64 + payload d) * 64 + payload e) :
    encodeOne (.ofNat n) = some [a, b, d, e] := by
  simp only [isSecondOfFour, Bool.and_eq_true, Bool.not_eq_true', Bool.and_eq_false_iff,
    beq_eq_false_iff_ne, ne_eq, decide_eq_false_iff_not, ← UInt8.toNat_inj,
    UInt8.lt_iff_toNat_lt, UInt8.le_iff_toNat_le, isTail_iff, UInt8.reduceToNat] at second
  have tail := isTail_iff.mp third
  have tail' := isTail_iff.mp fourth
  unfold payload at number
  rw [encodeOne_ofNat (by omega) (by omega)]
  have bounds : ¬n < 0x80 ∧ ¬n < 0x800 ∧ ¬n < 0x10000 := by omega
  simp only [bytesOf, bounds, ↓reduceIte]
  rw [ofNat_eq_of_toNat (a := a) (by omega), ofNat_eq_of_toNat (a := b) (by omega),
    ofNat_eq_of_toNat (a := d) (by omega), ofNat_eq_of_toNat (a := e) (by omega)]

theorem byte?_strayByte (high : 0x80 ≤ x.toNat) : (CodePoint.strayByte x).byte? = some x := by
  have top := x.toNat_lt
  simp [CodePoint.byte?, CodePoint.strayByte]
  omega

theorem isSurrogate_strayByte (x : UInt8) : (CodePoint.strayByte x).isSurrogate = true := by
  have top := x.toNat_lt
  rw [CodePoint.isSurrogate, Bool.and_eq_true, decide_eq_true_iff, decide_eq_true_iff]
  change 0xD800 ≤ 0xDC00 + x.toNat ∧ 0xDC00 + x.toNat ≤ 0xDFFF
  omega

theorem encodeOne_strayByte (high : 0x80 ≤ x.toNat) : encodeOne (.strayByte x) = some [x] := by
  rw [encodeOne, if_pos (isSurrogate_strayByte x), byte?_strayByte high]
  rfl

/-- A character is made of as many bytes as it says, which are its encoding. -/
theorem front_character (leads : front a rest = .character c count) :
    ∃ tail, rest = tail ++ rest.drop count ∧ tail.length = count ∧
      encodeOne c = some (a :: tail) := by
  unfold front at leads
  simp only [UInt8.lt_iff_toNat_lt, UInt8.reduceToNat] at leads
  split at leads
  · next one =>
    cases leads
    exact ⟨[], by simp, rfl, encodeOne_one one⟩
  split at leads
  · cases leads
  split at leads
  · next low two =>
    rcases rest with _ | ⟨b, rest⟩
    · cases leads
    by_cases second : isTail b
    · simp only [second, ↓reduceIte, Front.character.injEq] at leads
      obtain ⟨rfl, rfl⟩ := leads
      exact ⟨[b], by simp, rfl, encodeOne_two (by omega) two second rfl⟩
    · simp [second, broken] at leads
  split at leads
  · next low three =>
    rcases rest with _ | ⟨b, _ | ⟨d, rest⟩⟩
    · cases leads
    · dsimp only at leads
      split at leads <;> cases leads
    by_cases second : isSecondOfThree a b <;> by_cases third : isTail d <;>
      simp only [second, third, Bool.not_true, Bool.not_false, Bool.false_eq_true, ↓reduceIte,
        broken, reduceCtorEq, Front.character.injEq] at leads
    obtain ⟨rfl, rfl⟩ := leads
    exact ⟨[b, d], by simp, rfl, encodeOne_three (by omega) three second third rfl⟩
  split at leads
  · next low four =>
    rcases rest with _ | ⟨b, _ | ⟨d, _ | ⟨e, rest⟩⟩⟩
    · cases leads
    · dsimp only at leads
      split at leads <;> cases leads
    · dsimp only at leads
      split at leads
      · cases leads
      split at leads <;> cases leads
    by_cases second : isSecondOfFour a b <;> by_cases third : isTail d <;>
      by_cases fourth : isTail e <;>
      simp only [second, third, fourth, Bool.not_true, Bool.not_false, Bool.false_eq_true,
        ↓reduceIte, broken, reduceCtorEq, Front.character.injEq] at leads
    obtain ⟨rfl, rfl⟩ := leads
    exact ⟨[b, d, e], by simp, rfl, encodeOne_four (by omega) four second third fourth rfl⟩
  · cases leads

theorem decodeFrom_eq_drop (skip : Nat) (bytes : Bytes) :
    decodeFrom skip bytes = decode (bytes.drop skip) := by
  induction bytes generalizing skip with
  | nil => cases skip <;> rfl
  | cons a rest ih =>
    cases skip with
    | zero => rfl
    | succ skip => exact ih skip

theorem decode_cons_character (leads : front a rest = .character c count) :
    decode (a :: rest) = c :: decode (rest.drop count) := by
  rw [decode, decodeFrom, leads]
  exact congrArg (c :: ·) (decodeFrom_eq_drop count rest)

theorem decode_cons_invalid {reason : Text} (fails : front a rest = .invalid count reason) :
    decode (a :: rest) = .strayByte a :: decode rest := by
  rw [decode, decodeFrom, fails]
  rfl

/-- Bytes are read one part after the other where no character can go across. -/
theorem isSome_encodeOne_of_mem {bytes : Bytes} {c : CodePoint} (member : c ∈ decode bytes) :
    (encodeOne c).isSome = true := by
  induction size : bytes.length using Nat.strong_induction_on generalizing bytes with
  | _ size ih =>
    subst size
    cases bytes with
    | nil => cases member
    | cons a rest =>
      cases leads : front a rest with
      | character d count =>
        rw [decode_cons_character leads] at member
        rcases List.mem_cons.mp member with rfl | later
        · obtain ⟨tail, -, -, encoded⟩ := front_character leads
          rw [encoded]
          rfl
        · exact ih _ (by rw [List.length_drop, List.length_cons]; omega) later rfl
      | invalid count reason =>
        rw [decode_cons_invalid leads] at member
        rcases List.mem_cons.mp member with rfl | later
        · rw [encodeOne_strayByte (front_invalid leads)]
          rfl
        · exact ih _ (by simp) later rfl

theorem decode_append (bytes : Bytes) (stops : isTail x = false) :
    decode (bytes ++ x :: more) = decode bytes ++ decode (x :: more) := by
  induction size : bytes.length using Nat.strong_induction_on generalizing bytes with
  | _ size ih =>
    subst size
    cases bytes with
    | nil => rfl
    | cons a rest =>
      obtain ⟨c, count, leads, leadsOn⟩ | ⟨n, m, reason, reason', fails, failsOn⟩ :=
        front_append a rest more stops
      · obtain ⟨tail, cut, width, -⟩ := front_character leads
        have within : count ≤ rest.length := by
          rw [← width, cut]
          simp
        rw [List.cons_append, decode_cons_character leadsOn, decode_cons_character leads,
          List.drop_append_of_le_length within,
          ih _ (by rw [List.length_drop, List.length_cons]; omega) _ rfl, List.cons_append]
      · rw [List.cons_append, decode_cons_invalid failsOn, decode_cons_invalid fails,
          ih _ (by simp) _ rfl, List.cons_append]

theorem toNat_ofNat_of_lt {n : Nat} (small : n < 0x100) : (UInt8.ofNat n).toNat = n := by
  rw [UInt8.toNat_ofNat', Nat.mod_eq_of_lt small]

theorem isTail_ofNat {n : Nat} (small : n < 64) : isTail (.ofNat (0x80 + n)) = true := by
  rw [isTail_iff, toNat_ofNat_of_lt (by omega)]
  omega

theorem payload_ofNat {n : Nat} (small : n < 64) : payload (.ofNat (0x80 + n)) = n := by
  unfold payload
  have value := toNat_ofNat_of_lt (n := 0x80 + n) (by omega)
  omega

theorem isTail_of_start (start : a.toNat < 0x80 ∨ 0xC0 ≤ a.toNat) : isTail a = false := by
  rw [← Bool.not_eq_true, isTail_iff]
  omega

theorem front_two (low : 0xC2 ≤ a.toNat) (high : a.toNat < 0xE0) (second : isTail b = true)
    (code : c.code = (a.toNat - 0xC0) * 64 + payload b) (rest : Bytes) :
    front a (b :: rest) = .character c 1 := by
  have least : ¬a.toNat < 0x80 ∧ ¬a.toNat < 0xC2 := by omega
  simp only [front, UInt8.lt_iff_toNat_lt, UInt8.reduceToNat, least, high, second, ↓reduceIte,
    ← code, CodePoint.ofNat, c.code_lt, ↓reduceDIte]

theorem front_three {d : UInt8} (low : 0xE0 ≤ a.toNat) (high : a.toNat < 0xF0)
    (second : isSecondOfThree a b = true) (third : isTail d = true)
    (code : c.code = ((a.toNat - 0xE0) * 64 + payload b) * 64 + payload d) (rest : Bytes) :
    front a (b :: d :: rest) = .character c 2 := by
  have least : ¬a.toNat < 0x80 ∧ ¬a.toNat < 0xC2 ∧ ¬a.toNat < 0xE0 := by omega
  simp only [front, UInt8.lt_iff_toNat_lt, UInt8.reduceToNat, least, high, second, third,
    Bool.not_true, Bool.false_eq_true, ↓reduceIte, ← code, CodePoint.ofNat, c.code_lt, ↓reduceDIte]

theorem front_four {d e : UInt8} (low : 0xF0 ≤ a.toNat) (high : a.toNat < 0xF5)
    (second : isSecondOfFour a b = true) (third : isTail d = true) (fourth : isTail e = true)
    (code : c.code = (((a.toNat - 0xF0) * 64 + payload b) * 64 + payload d) * 64 + payload e)
    (rest : Bytes) : front a (b :: d :: e :: rest) = .character c 3 := by
  have least : ¬a.toNat < 0x80 ∧ ¬a.toNat < 0xC2 ∧ ¬a.toNat < 0xE0 ∧ ¬a.toNat < 0xF0 := by omega
  simp only [front, UInt8.lt_iff_toNat_lt, UInt8.reduceToNat, least, high, second, third, fourth,
    Bool.not_true, Bool.false_eq_true, ↓reduceIte, ← code, CodePoint.ofNat, c.code_lt, ↓reduceDIte]

/-- A character that has been written is read again, whatever follows it. -/
theorem front_bytesOf (scalar : c.isSurrogate = false) :
    ∃ a tail, bytesOf c = a :: tail ∧ isTail a = false ∧
      ∀ rest, front a (tail ++ rest) = .character c tail.length := by
  have top := c.code_lt
  have outside : ¬(0xD800 ≤ c.code ∧ c.code ≤ 0xDFFF) := by
    simpa [CodePoint.isSurrogate] using scalar
  unfold bytesOf
  dsimp only
  split_ifs with one two three
  · have first := toNat_ofNat_of_lt (n := c.code) (by omega)
    refine ⟨_, [], rfl, isTail_of_start (by omega), fun rest => ?_⟩
    simp [front, UInt8.lt_iff_toNat_lt, first, one, CodePoint.ofNat, c.code_lt]
  · have first := toNat_ofNat_of_lt (n := 0xC0 + c.code / 64) (by omega)
    have second : c.code % 64 < 64 := by omega
    refine ⟨_, [_], rfl, isTail_of_start (by omega), fun rest => ?_⟩
    refine front_two (by omega) (by omega) (isTail_ofNat second) ?_ rest
    rw [first, payload_ofNat second]
    omega
  · have first := toNat_ofNat_of_lt (n := 0xE0 + c.code / 4096) (by omega)
    have second : c.code / 64 % 64 < 64 := by omega
    have third : c.code % 64 < 64 := by omega
    refine ⟨_, [_, _], rfl, isTail_of_start (by omega), fun rest => ?_⟩
    refine front_three (by omega) (by omega) ?_ (isTail_ofNat third) ?_ rest
    · have value := toNat_ofNat_of_lt (n := 0x80 + c.code / 64 % 64) (by omega)
      simp only [isSecondOfThree, isTail_ofNat second, Bool.true_and, Bool.and_eq_true,
        Bool.not_eq_true', Bool.and_eq_false_iff, beq_eq_false_iff_ne, ne_eq,
        decide_eq_false_iff_not, ← UInt8.toNat_inj, UInt8.lt_iff_toNat_lt, UInt8.le_iff_toNat_le,
        UInt8.reduceToNat, first, value]
      omega
    · rw [first, payload_ofNat second, payload_ofNat third]
      omega
  · have first := toNat_ofNat_of_lt (n := 0xF0 + c.code / 262144) (by omega)
    have second : c.code / 4096 % 64 < 64 := by omega
    have third : c.code / 64 % 64 < 64 := by omega
    have fourth : c.code % 64 < 64 := by omega
    refine ⟨_, [_, _, _], rfl, isTail_of_start (by omega), fun rest => ?_⟩
    refine front_four (by omega) (by omega) ?_ (isTail_ofNat third) (isTail_ofNat fourth) ?_ rest
    · have value := toNat_ofNat_of_lt (n := 0x80 + c.code / 4096 % 64) (by omega)
      simp only [isSecondOfFour, isTail_ofNat second, Bool.true_and, Bool.and_eq_true,
        Bool.not_eq_true', Bool.and_eq_false_iff, beq_eq_false_iff_ne, ne_eq,
        decide_eq_false_iff_not, ← UInt8.toNat_inj, UInt8.lt_iff_toNat_lt, UInt8.le_iff_toNat_le,
        UInt8.reduceToNat, first, value]
      omega
    · rw [first, payload_ofNat second, payload_ofNat third, payload_ofNat fourth]
      omega
end Utf8

namespace Encoding

variable {c : CodePoint} {x : UInt8} {s t : Text}

/-- The bytes of one code point of a name. -/
def codeBytes (c : CodePoint) : Bytes :=
  (Utf8.encodeOne c).getD (Utf8.bytesOf c)

theorem nameBytes_cons (c : CodePoint) (t : Text) :
    nameBytes (c :: t) = codeBytes c ++ nameBytes t :=
  rfl

theorem nameBytes_append (s t : Text) : nameBytes (s ++ t) = nameBytes s ++ nameBytes t :=
  List.flatMap_append

theorem mem_nameBytes (member : c ∈ t) (among : x ∈ codeBytes c) : x ∈ nameBytes t :=
  List.mem_flatMap.mpr ⟨c, member, among⟩

theorem codeBytes_strayByte (high : 0x80 ≤ x.toNat) : codeBytes (.strayByte x) = [x] := by
  rw [codeBytes, Utf8.encodeOne_strayByte high, Option.getD_some]

/-- Bytes that are read as a name and written again are the same bytes. -/
theorem nameBytes_decode (bytes : Bytes) : nameBytes (Utf8.decode bytes) = bytes := by
  induction size : bytes.length using Nat.strong_induction_on generalizing bytes with
  | _ size ih =>
    subst size
    cases bytes with
    | nil => rfl
    | cons a rest =>
      cases leads : Utf8.front a rest with
      | character c count =>
        obtain ⟨tail, cut, width, encoded⟩ := Utf8.front_character leads
        rw [Utf8.decode_cons_character leads, nameBytes_cons, codeBytes, encoded, Option.getD_some,
          ih _ (by rw [List.length_drop, List.length_cons]; omega) _ rfl, List.cons_append, ← cut]
      | invalid count reason =>
        rw [Utf8.decode_cons_invalid leads, nameBytes_cons,
          codeBytes_strayByte (Utf8.front_invalid leads), ih _ (by simp) _ rfl]
        rfl

theorem decode_injective : Function.Injective Utf8.decode :=
  Function.LeftInverse.injective nameBytes_decode

theorem codeBytes_of_lt (small : c.code < 0x80) : codeBytes c = [.ofNat c.code] := by
  have notSurrogate : c.isSurrogate = false := by
    simp [CodePoint.isSurrogate]
    omega
  simp [codeBytes, Utf8.encodeOne, notSurrogate, Utf8.bytesOf, small]

theorem high_of_mem_bytesOf (high : 0x80 ≤ c.code) (member : x ∈ Utf8.bytesOf c) :
    0x80 ≤ x.toNat := by
  have top := c.code_lt
  have bytes : ∀ n, 0x80 ≤ n → n < 0x100 → x = UInt8.ofNat n → 0x80 ≤ x.toNat := by
    rintro n least most rfl
    rw [UInt8.toNat_ofNat', Nat.mod_eq_of_lt most]
    exact least
  simp only [Utf8.bytesOf, if_neg (Nat.not_lt.mpr high)] at member
  split_ifs at member
  · rcases List.mem_pair.mp member with same | same <;> exact bytes _ (by omega) (by omega) same
  · simp only [List.mem_cons, List.not_mem_nil, or_false] at member
    rcases member with same | same | same <;> exact bytes _ (by omega) (by omega) same
  · simp only [List.mem_cons, List.not_mem_nil, or_false] at member
    rcases member with same | same | same | same <;> exact bytes _ (by omega) (by omega) same

theorem high_of_mem_codeBytes (high : 0x80 ≤ c.code) (member : x ∈ codeBytes c) :
    0x80 ≤ x.toNat := by
  unfold codeBytes Utf8.encodeOne at member
  split at member
  · cases byte : c.byte? with
    | none =>
      rw [byte] at member
      exact high_of_mem_bytesOf high member
    | some b =>
      rw [byte] at member
      obtain rfl : x = b := by simpa using member
      unfold CodePoint.byte? at byte
      split at byte
      · injection byte with same
        rw [← same, UInt8.toNat_ofNat']
        omega
      · cases byte
  · exact high_of_mem_bytesOf high member

/-- A byte below 0x80 stands for nothing but itself. -/
theorem codeBytes_of_mem (small : x.toNat < 0x80) (member : x ∈ codeBytes c) :
    c.code = x.toNat ∧ codeBytes c = [x] := by
  have low : c.code < 0x80 := by
    by_contra high
    have := high_of_mem_codeBytes (Nat.le_of_not_lt high) member
    omega
  rw [codeBytes_of_lt low] at member ⊢
  obtain rfl := List.mem_singleton.mp member
  rw [UInt8.toNat_ofNat', Nat.mod_eq_of_lt (by omega)]
  exact ⟨rfl, rfl⟩

theorem codeBytes_ne_nil (c : CodePoint) : codeBytes c ≠ [] := by
  unfold codeBytes Utf8.encodeOne Utf8.bytesOf
  split
  · cases c.byte? with
    | some b => simp
    | none =>
      simp only [Option.map_none, Option.getD_none]
      split_ifs <;> simp
  · simp only [Option.getD_some]
    split_ifs <;> simp

/-- Characters that are written behind any bytes are read behind what the bytes are read as. -/
theorem decode_append_nameBytes (bytes : Bytes) (scalar : ∀ c ∈ t, c.isSurrogate = false) :
    Utf8.decode (bytes ++ nameBytes t) = Utf8.decode bytes ++ t := by
  induction t generalizing bytes with
  | nil =>
    change Utf8.decode (bytes ++ []) = _
    rw [List.append_nil, List.append_nil]
  | cons c rest ih =>
    have here := scalar c List.mem_cons_self
    obtain ⟨a, tail, written, starts, leads⟩ := Utf8.front_bytesOf here
    have reads := ih [] fun c member => scalar c (List.mem_cons_of_mem _ member)
    rw [nameBytes_cons, codeBytes, Utf8.encodeOne, if_neg (by simp [here]), Option.getD_some,
      written, List.cons_append, Utf8.decode_append bytes starts,
      Utf8.decode_cons_character (leads _),
      List.drop_left]
    exact congrArg (fun text => Utf8.decode bytes ++ c :: text) reads

end Encoding

namespace Utf8

variable {a : UInt8} {rest bytes : Bytes} {c : CodePoint} {count : Nat} {t : Text}

/-- Bytes write a text in UTF-8, which has no surrogates. -/
structure Spelled (bytes : Bytes) (t : Text) : Prop where
  scalar : ∀ c ∈ t, c.isSurrogate = false
  written : bytes = t.flatMap bytesOf

/-- Only bytes of ASCII are characters by themselves. -/
theorem lt_of_front (leads : front a rest = .character c 0) : a.toNat < 0x80 := by
  by_contra high
  have notAscii : ¬a < 0x80 := fun less => high (UInt8.lt_iff_toNat_lt.mp less)
  unfold front at leads
  rw [if_neg notAscii] at leads
  repeat' split at leads
  all_goals simp [truncated, broken] at leads

theorem isSurrogate_of_front (leads : front a rest = .character c count) :
    c.isSurrogate = false := by
  obtain ⟨tail, -, length, encoded⟩ := front_character leads
  rw [Bool.eq_false_iff]
  intro surrogate
  rw [encodeOne, if_pos surrogate] at encoded
  obtain ⟨b, byte, same⟩ := Option.map_eq_some_iff.mp encoded
  obtain ⟨rfl, rfl⟩ := List.cons.inj same
  subst length
  have small := lt_of_front leads
  unfold CodePoint.byte? at byte
  split at byte
  · rename_i within
    have same := congrArg UInt8.toNat (Option.some.inj byte)
    rw [toNat_ofNat_of_lt (by omega)] at same
    omega
  · cases byte

theorem decodeStrictFrom_eq_drop (position skip : Nat) (bytes : Bytes) :
    decodeStrictFrom position skip bytes =
      decodeStrictFrom (position + skip) 0 (bytes.drop skip) := by
  induction bytes generalizing position skip with
  | nil => cases skip <;> rfl
  | cons a rest ih =>
    cases skip with
    | zero => rfl
    | succ skip =>
      rw [decodeStrictFrom, ih, List.drop_succ_cons]
      congr 1
      omega

/-- Bytes are read strictly as they are read otherwise, if that makes no surrogates; and else it
fails. -/
theorem decodeStrictFrom_cases (position : Nat) (bytes : Bytes) :
    (decodeStrictFrom position 0 bytes = .ok (decode bytes) ∧
      ∀ c ∈ decode bytes, c.isSurrogate = false) ∨
    (∃ e, decodeStrictFrom position 0 bytes = .error e) ∧
      ∃ c ∈ decode bytes, c.isSurrogate = true := by
  induction size : bytes.length using Nat.strong_induction_on generalizing bytes position with
  | _ size ih =>
    subst size
    cases bytes with
    | nil => exact .inl ⟨rfl, by simp [decode, decodeFrom]⟩
    | cons a rest =>
      rw [decodeStrictFrom]
      cases leads : front a rest with
      | character c count =>
        rw [decode_cons_character leads]
        dsimp only
        rw [decodeStrictFrom_eq_drop]
        have shorter : (rest.drop count).length < (a :: rest).length := by
          rw [List.length_drop, List.length_cons]
          omega
        rcases ih _ shorter (position + 1 + count) _ rfl with
          ⟨read, scalar⟩ | ⟨⟨e, read⟩, d, member, surrogate⟩
        · rw [read]
          exact .inl ⟨rfl, List.forall_mem_cons.mpr ⟨isSurrogate_of_front leads, scalar⟩⟩
        · rw [read]
          exact .inr ⟨⟨e, rfl⟩, d, List.mem_cons_of_mem c member, surrogate⟩
      | invalid length reason =>
        rw [decode_cons_invalid leads]
        exact .inr ⟨⟨_, rfl⟩, _, List.mem_cons_self, isSurrogate_strayByte a⟩

theorem nameBytes_of_scalar (scalar : ∀ c ∈ t, c.isSurrogate = false) :
    Encoding.nameBytes t = t.flatMap bytesOf := by
  unfold Encoding.nameBytes
  apply List.flatMap_congr
  intro c member
  rw [encodeOne, if_neg (by simp [scalar c member]), Option.getD_some]

theorem decode_of_spelled (spelled : Spelled bytes t) : decode bytes = t := by
  have decoded := Encoding.decode_append_nameBytes [] spelled.scalar
  rw [nameBytes_of_scalar spelled.scalar, ← spelled.written] at decoded
  exact decoded

/-- Bytes are read strictly just if they write a text. -/
theorem decodeStrict_eq_ok_iff : Encoding.decodeStrict bytes = .ok t ↔ Spelled bytes t := by
  unfold Encoding.decodeStrict
  rcases decodeStrictFrom_cases 0 bytes with ⟨read, scalar⟩ | ⟨⟨e, read⟩, c, member, surrogate⟩
  · rw [read]
    constructor
    · intro same
      cases same
      exact ⟨scalar, by rw [← nameBytes_of_scalar scalar, Encoding.nameBytes_decode]⟩
    · exact fun spelled => congrArg Except.ok (decode_of_spelled spelled)
  · rw [read]
    refine iff_of_false (fun same => by cases same) fun spelled => ?_
    rw [decode_of_spelled spelled] at member
    simp [spelled.scalar c member] at surrogate

end Utf8

end Renewal
