import Mathlib.Data.List.TakeDrop
import Mathlib.Data.List.TakeWhile
import Renewal.Json.Reader

/-! # Numbers in JSON texts

A `Json.Numeral` is a number as it is written: digits without a needless zero in front, and perhaps
a sign, a fraction and an exponent. The reader takes a numeral whole, unless it has no fraction and
no exponent and more digits than integers may have (`Json.number?_cases`, `Json.Numeral.number?`).
-/

namespace Renewal

/-- All code points of a text are digits. -/
def Text.AllDigits (t : Text) : Prop :=
  ∀ c ∈ t, c.isAsciiDigit = true

/-- More digits follow each other in a text than an integer may have. -/
def Text.HasLongRun (t : Text) : Prop :=
  ∃ ds, ds <:+: t ∧ Text.AllDigits ds ∧ Integer.digitLimit < ds.length

theorem CodePoint.code_of_isAsciiDigit {c : CodePoint} (digit : c.isAsciiDigit = true) :
    48 ≤ c.code ∧ c.code ≤ 57 := by
  simpa [isAsciiDigit, between] using digit

/-- A digit has its value among the digits of all scripts. -/
theorem CodePoint.decimalDigit?_of_isAsciiDigit {c : CodePoint} (digit : c.isAsciiDigit = true) :
    c.decimalDigit? = some (c.code - 48) := by
  have within : (0x30 ≤ c.code && c.code ≤ 0x30 + 9) = true := digit
  unfold decimalDigit? decimalZeros
  rw [List.find?_toArray]
  exact congrArg (Option.map (c.code - ·)) (List.find?_cons_of_pos
    (p := fun start => decide (start ≤ c.code) && decide (c.code ≤ start + 9)) within)

namespace Integer

theorem digits_of_allDigits {t : Text} (all : t.AllDigits) :
    digits t = (t.map fun c => c.code - 48, []) := by
  induction t with
  | nil => rfl
  | cons c rest ih =>
    obtain ⟨digit, others⟩ := List.forall_mem_cons.mp all
    unfold digits
    rw [CodePoint.decimalDigit?_of_isAsciiDigit digit]
    dsimp only
    rw [ih others]
    rfl

/-- Digits are read as the number they denote, unless there are too many. -/
theorem read_of_allDigits {t : Text} (written : t ≠ []) (all : t.AllDigits) :
    read t = if digitLimit < t.length then .error (.tooLong t.length)
      else .ok (ofDigits (t.map fun c => c.code - 48)) := by
  obtain ⟨c, rest, rfl⟩ := List.exists_cons_of_ne_nil written
  have digit := CodePoint.code_of_isAsciiDigit (all c List.mem_cons_self)
  have other : ∀ d : CodePoint, d.code < 48 ∨ 57 < d.code → c ≠ d := by
    rintro d apart rfl
    omega
  have solid : isMargin c = false := by
    simp only [isMargin, CodePoint.isBlank, Bool.and_eq_false_iff, Bool.or_eq_false_iff,
      decide_eq_false_iff_not, beq_eq_false_iff_ne]
    omega
  have unsigned : sign ((c :: rest).dropWhile isMargin) = (false, c :: rest) := by
    rw [List.dropWhile_cons_of_neg (by simp [solid]), sign, if_neg (other _ (.inl (by decide))),
      if_neg (other _ (.inl (by decide)))]
  have notLow : c ≠ ('_' : CodePoint) := other _ (.inr (by decide))
  unfold read
  rw [unsigned]
  dsimp only
  rw [digits_of_allDigits all]
  simp [notLow]

end Integer

namespace Json

variable {c : CodePoint} {ds rest t : Text}

/-- A point and digits, or nothing. -/
def IsFraction (t : Text) : Prop :=
  t = [] ∨ ∃ ds : Text, t = ('.' : CodePoint) :: ds ∧ ds ≠ [] ∧ ds.AllDigits

/-- A sign, or nothing. -/
def IsSign (sign : Text) : Prop :=
  sign = [] ∨ ∃ d, sign = [d] ∧ (d = ('+' : CodePoint) ∨ d = ('-' : CodePoint))

/-- A letter, perhaps a sign, and digits, or nothing. -/
def IsExponent (t : Text) : Prop :=
  t = [] ∨ ∃ (e : CodePoint) (sign ds : Text), t = e :: (sign ++ ds) ∧
    (e = ('e' : CodePoint) ∨ e = ('E' : CodePoint)) ∧
    IsSign sign ∧ ds ≠ [] ∧ ds.AllDigits

/-- A number as it is written. -/
structure Numeral where
  negative : Bool
  whole : Text
  fraction : Text
  exponent : Text
  written : whole ≠ []
  digits : whole.AllDigits
  /-- A zero in front stands alone. -/
  lead : whole.head? = some ('0' : CodePoint) → whole = [('0' : CodePoint)]
  isFraction : IsFraction fraction
  isExponent : IsExponent exponent

namespace Numeral

/-- The text of a numeral. -/
def text (n : Numeral) : Text :=
  (if n.negative then [('-' : CodePoint)] else []) ++ (n.whole ++ (n.fraction ++ n.exponent))

/-- The value of a numeral. -/
def json (n : Numeral) : Json :=
  if n.fraction = [] ∧ n.exponent = [] then
    .integer (if n.negative then -(Integer.ofDigits (n.whole.map fun c => c.code - 48) : Int)
      else Integer.ofDigits (n.whole.map fun c => c.code - 48))
  else .real (realNumber n.negative n.whole n.fraction n.exponent)

/-- A numeral for an integer with more digits than an integer may have. -/
def Long (n : Numeral) : Prop :=
  (n.fraction = [] ∧ n.exponent = []) ∧ Integer.digitLimit < n.whole.length

instance (n : Numeral) : Decidable n.Long :=
  inferInstanceAs (Decidable (_ ∧ _))

end Numeral

/-- A text does not begin with a digit. -/
def NoDigit (t : Text) : Prop :=
  ∀ c, t.head? = some c → c.isAsciiDigit = false

theorem digits_append (all : Text.AllDigits ds) (stops : NoDigit rest) :
    digits (ds ++ rest) = (ds, rest) := by
  have stop : rest.takeWhile CodePoint.isAsciiDigit = [] ∧
      rest.dropWhile CodePoint.isAsciiDigit = rest := by
    cases rest with
    | nil => exact ⟨rfl, rfl⟩
    | cons c rest =>
      have other := stops c rfl
      exact ⟨List.takeWhile_cons_of_neg (by simp [other]),
        List.dropWhile_cons_of_neg (by simp [other])⟩
  rw [digits, List.span_eq_takeWhile_dropWhile, List.takeWhile_append_of_pos all,
    List.dropWhile_append_of_pos all, stop.1, stop.2, List.append_nil]

theorem digits_cases (t : Text) : ∃ ds rest : Text, t = ds ++ rest ∧ digits t = (ds, rest) ∧
    ds.AllDigits := by
  refine ⟨t.takeWhile CodePoint.isAsciiDigit, t.dropWhile CodePoint.isAsciiDigit,
    List.takeWhile_append_dropWhile.symm, List.span_eq_takeWhile_dropWhile _ _, ?_⟩
  intro c member
  exact List.mem_takeWhile_imp member

theorem fraction_cases (t : Text) : ∃ f rest : Text, t = f ++ rest ∧ fraction t = (f, rest) ∧
    IsFraction f := by
  cases t with
  | nil => exact ⟨[], [], rfl, rfl, .inl rfl⟩
  | cons c rest =>
    obtain ⟨ds, after, rfl, read, all⟩ := digits_cases rest
    rw [fraction, read]
    dsimp only
    split
    · rename_i point
      refine ⟨c :: ds, after, rfl, rfl, .inr ⟨ds, by rw [point.1], ?_, all⟩⟩
      simpa using point.2
    · exact ⟨[], _, rfl, rfl, .inl rfl⟩

theorem fraction_append {f : Text} (isFraction : IsFraction f)
    (stops : NoDigit rest)
    (noPoint : rest.head? ≠ some ('.' : CodePoint)) : fraction (f ++ rest) = (f, rest) := by
  rcases isFraction with rfl | ⟨ds, rfl, some, all⟩
  · cases rest with
    | nil => rfl
    | cons c rest =>
      have other : c ≠ ('.' : CodePoint) := by simpa using noPoint
      rw [List.nil_append, fraction]
      dsimp only
      rw [if_neg fun point => other point.1]
  · rw [List.cons_append, fraction]
    dsimp only
    rw [digits_append all stops, if_pos ⟨rfl, by simpa using some⟩]

/-- An exponent is read after its letter and its sign. -/
theorem exponent_cons {sign body after : Text} (isSign : IsSign sign)
    (unsigned : sign = [] →
      body.head? ≠ some ('+' : CodePoint) ∧ body.head? ≠ some ('-' : CodePoint))
    (read : digits body = (ds, after)) :
    exponent (c :: (sign ++ body)) =
      if (c = ('e' : CodePoint) ∨ c = ('E' : CodePoint)) ∧ !ds.isEmpty then
        (c :: (sign ++ ds), after)
      else ([], c :: (sign ++ body)) := by
  unfold exponent
  rcases isSign with rfl | ⟨d, rfl, isSign⟩
  · cases body with
    | nil =>
      cases read
      rfl
    | cons d more =>
      have other : ¬(d = ('+' : CodePoint) ∨ d = ('-' : CodePoint)) := by
        simpa using unsigned rfl
      simp only [List.nil_append, other, ↓reduceIte, read]
  · simp only [List.cons_append, List.nil_append, isSign, ↓reduceIte, read]

theorem exists_sign (t : Text) : ∃ sign body : Text, t = sign ++ body ∧ IsSign sign ∧
    (sign = [] → body.head? ≠ some ('+' : CodePoint) ∧ body.head? ≠ some ('-' : CodePoint)) := by
  cases t with
  | nil => exact ⟨[], [], rfl, .inl rfl, by simp⟩
  | cons d more =>
    by_cases isSign : d = ('+' : CodePoint) ∨ d = ('-' : CodePoint)
    · exact ⟨[d], more, rfl, .inr ⟨d, rfl, isSign⟩, by simp⟩
    · exact ⟨[], d :: more, rfl, .inl rfl, by simpa using isSign⟩

theorem exponent_cases (t : Text) : ∃ e rest : Text, t = e ++ rest ∧ exponent t = (e, rest) ∧
    IsExponent e := by
  cases t with
  | nil => exact ⟨[], [], rfl, rfl, .inl rfl⟩
  | cons c rest =>
    obtain ⟨sign, body, rfl, isSign, unsigned⟩ := exists_sign rest
    obtain ⟨ds, after, rfl, read, all⟩ := digits_cases body
    rw [exponent_cons isSign unsigned read]
    split
    · rename_i letter
      refine ⟨c :: (sign ++ ds), after, by simp, rfl,
        .inr ⟨c, sign, ds, rfl, letter.1, isSign, ?_, all⟩⟩
      simpa using letter.2
    · exact ⟨[], _, rfl, rfl, .inl rfl⟩

theorem isAsciiDigit_of_allDigits {ds : Text} (all : ds.AllDigits) (some : ds ≠ []) :
    ∃ d more, ds = d :: more ∧ d.isAsciiDigit = true := by
  obtain ⟨d, more, rfl⟩ := List.exists_cons_of_ne_nil some
  exact ⟨d, more, rfl, all d List.mem_cons_self⟩

theorem exponent_append {e : Text} (isExponent : IsExponent e)
    (stops : NoDigit rest)
    (noLetter : rest.head? ≠ some ('e' : CodePoint) ∧ rest.head? ≠ some ('E' : CodePoint)) :
    exponent (e ++ rest) = (e, rest) := by
  rcases isExponent with rfl | ⟨e, sign, ds, rfl, letter, isSign, some, all⟩
  · cases rest with
    | nil => rfl
    | cons c rest =>
      obtain ⟨sign, body, rfl, isSign, unsigned⟩ := exists_sign rest
      have other : ¬(c = ('e' : CodePoint) ∨ c = ('E' : CodePoint)) := by simpa using noLetter
      obtain ⟨ds, after, -, read, -⟩ := digits_cases body
      rw [List.nil_append, exponent_cons isSign unsigned read, if_neg fun both => other both.1]
  · have unsigned : sign = [] → (ds ++ rest).head? ≠ Option.some ('+' : CodePoint) ∧
        (ds ++ rest).head? ≠ Option.some ('-' : CodePoint) := by
      intro _
      obtain ⟨d, more, rfl, digit⟩ := isAsciiDigit_of_allDigits all some
      constructor
      · rintro ⟨⟩
        cases digit
      · rintro ⟨⟩
        cases digit
    rw [List.cons_append, List.append_assoc,
      exponent_cons isSign unsigned (digits_append all stops), if_pos ⟨letter, by simpa using some⟩]

/-- Reads the digits before the point. -/
def wholePart (t : Text) : Text × Text :=
  if t.head? = some ('0' : CodePoint) then (t.take 1, t.drop 1) else digits t

theorem wholePart_cases (t : Text) : ∃ whole rest : Text, t = whole ++ rest ∧
    wholePart t = (whole, rest) ∧ whole.AllDigits ∧
    (whole.head? = some ('0' : CodePoint) → whole = [('0' : CodePoint)]) := by
  unfold wholePart
  split
  · rename_i zero
    obtain ⟨rest, rfl⟩ := List.head?_eq_some_iff.mp zero
    exact ⟨[('0' : CodePoint)], rest, rfl, rfl, by simp [Text.AllDigits]; rfl, fun _ => rfl⟩
  · rename_i other
    obtain ⟨ds, rest, rfl, read, all⟩ := digits_cases t
    refine ⟨ds, rest, rfl, read, all, fun zero => absurd ?_ other⟩
    rw [List.head?_append, zero]
    rfl

theorem Numeral.wholePart_append (n : Numeral) (stops : NoDigit rest) :
    wholePart (n.whole ++ rest) = (n.whole, rest) := by
  obtain ⟨d, more, cut, -⟩ := isAsciiDigit_of_allDigits n.digits n.written
  unfold wholePart
  split
  · rename_i zero
    rw [n.lead (by rw [cut] at zero ⊢; exact zero)]
    rfl
  · exact digits_append n.digits stops

theorem Numeral.head?_text (n : Numeral) (rest : Text) :
    (n.text ++ rest).head? = some ('-' : CodePoint) ↔ n.negative = true := by
  obtain ⟨d, more, cut, digit⟩ := isAsciiDigit_of_allDigits n.digits n.written
  unfold text
  rw [cut]
  cases n.negative with
  | true => exact iff_of_true rfl rfl
  | false =>
    refine iff_of_false ?_ Bool.false_ne_true
    rintro ⟨⟩
    cases digit

/-- A numeral whose parts are read one after the other. -/
theorem number?_of_parts (n : Numeral)
    (first : wholePart (n.whole ++ (n.fraction ++ (n.exponent ++ rest))) =
      (n.whole, n.fraction ++ (n.exponent ++ rest)))
    (second : fraction (n.fraction ++ (n.exponent ++ rest)) = (n.fraction, n.exponent ++ rest))
    (third : exponent (n.exponent ++ rest) = (n.exponent, rest)) :
    number? (n.text ++ rest) =
      if n.Long then .error (.integer (.tooLong n.whole.length))
      else .ok (some (n.json, rest)) := by
  have unsigned : (if n.negative = true then (n.text ++ rest).drop 1 else n.text ++ rest) =
      n.whole ++ (n.fraction ++ (n.exponent ++ rest)) := by
    unfold Numeral.text
    cases n.negative <;> simp
  unfold wholePart at first
  unfold number?
  simp only [n.head?_text, unsigned, first]
  simp only [second, third, List.isEmpty_iff, n.written, ↓reduceIte, Bool.decide_eq_true]
  by_cases plain : n.fraction = [] ∧ n.exponent = []
  · rw [if_pos plain, Integer.read_of_allDigits n.written n.digits]
    by_cases long : Integer.digitLimit < n.whole.length
    · rw [if_pos long, if_pos ⟨plain, long⟩]
    · rw [if_neg long, if_neg fun both => long both.2, Numeral.json, if_pos plain]
  · rw [if_neg plain, if_neg fun both => plain both.1, Numeral.json, if_neg plain]

/-- Without digits there is no number. -/
theorem number?_of_none {negative : Bool} {body : Text}
    (unsigned : negative = false →
      ((if negative then [('-' : CodePoint)] else []) ++ body).head? ≠ some ('-' : CodePoint))
    (first : wholePart body = ([], rest)) :
    number? ((if negative then [('-' : CodePoint)] else []) ++ body) = .ok none := by
  unfold wholePart at first
  unfold number?
  cases negative with
  | true =>
    simp only [↓reduceIte, List.cons_append, List.nil_append, List.head?_cons,
      List.drop_succ_cons, List.drop_zero, first, List.isEmpty_nil]
  | false =>
    have other := unsigned rfl
    simp only [Bool.false_eq_true, ↓reduceIte, List.nil_append] at other ⊢
    simp only [other, ↓reduceIte, first, List.isEmpty_nil]

/-- What comes of reading a number: there is none, or it is given with what follows it, or it has
more digits than an integer may have. -/
theorem number?_cases (t : Text) : number? t = .ok none ∨
    (∃ (n : Numeral) (rest : Text), t = n.text ++ rest ∧ ¬n.Long ∧
      number? t = .ok (some (n.json, rest))) ∨
    ∃ e, number? t = .error (.integer e) ∧ t.HasLongRun := by
  obtain ⟨negative, body, cut, unsigned⟩ : ∃ (negative : Bool) (body : Text),
      t = (if negative then [('-' : CodePoint)] else []) ++ body ∧
      (negative = false → t.head? ≠ some ('-' : CodePoint)) := by
    by_cases minus : t.head? = some ('-' : CodePoint)
    · obtain ⟨body, rfl⟩ := List.head?_eq_some_iff.mp minus
      exact ⟨true, body, rfl, by simp⟩
    · exact ⟨false, t, rfl, fun _ => minus⟩
  obtain ⟨whole, rest, rfl, first, digits, lead⟩ := wholePart_cases body
  obtain ⟨frac, rest, rfl, second, isFraction⟩ := fraction_cases rest
  obtain ⟨exp, rest, rfl, third, isExponent⟩ := exponent_cases rest
  by_cases written : whole = []
  · subst written
    refine .inl ?_
    rw [cut]
    exact number?_of_none (cut ▸ unsigned) first
  · let n : Numeral :=
      ⟨negative, whole, frac, exp, written, digits, lead, isFraction, isExponent⟩
    have text : t = n.text ++ rest := by simp [cut, n, Numeral.text]
    have parts := number?_of_parts n first second third
    rw [← text] at parts
    split at parts
    · rename_i long
      refine .inr (.inr ⟨_, parts, whole, ?_, digits, long.2⟩)
      rw [cut]
      exact List.infix_append' _ _ _
    · rename_i short
      exact .inr (.inl ⟨n, rest, text, short, parts⟩)

/-- A text with which no numeral goes on. -/
structure Ends (t : Text) : Prop where
  noDigit : NoDigit t
  noPoint : t.head? ≠ some ('.' : CodePoint)
  noLetter : t.head? ≠ some ('e' : CodePoint) ∧ t.head? ≠ some ('E' : CodePoint)

/-- An exponent does not begin as a fraction goes on. -/
theorem Ends.exponent {e : Text} (ends : Ends rest) (isExponent : IsExponent e) :
    NoDigit (e ++ rest) ∧ (e ++ rest).head? ≠ some ('.' : CodePoint) := by
  rcases isExponent with rfl | ⟨_, sign, ds, rfl, rfl | rfl, -⟩
  · exact ⟨ends.noDigit, ends.noPoint⟩
  · exact ⟨by rintro _ ⟨⟩; rfl, by rintro ⟨⟩⟩
  · exact ⟨by rintro _ ⟨⟩; rfl, by rintro ⟨⟩⟩

theorem noDigit_fraction {f : Text} (isFraction : IsFraction f) (noDigit : NoDigit rest) :
    NoDigit (f ++ rest) := by
  rcases isFraction with rfl | ⟨ds, rfl, -⟩
  · exact noDigit
  · rintro _ ⟨⟩
    rfl

/-- A numeral is read with what follows it, unless it has more digits than an integer may have. -/
theorem Numeral.number? (n : Numeral) (ends : Ends rest) :
    number? (n.text ++ rest) =
      if n.Long then .error (.integer (.tooLong n.whole.length))
      else .ok (some (n.json, rest)) := by
  obtain ⟨noDigit, noPoint⟩ := ends.exponent n.isExponent
  exact number?_of_parts n
    (n.wholePart_append (noDigit_fraction n.isFraction noDigit))
    (fraction_append n.isFraction noDigit noPoint)
    (exponent_append n.isExponent ends.noDigit ends.noLetter)

end Json

end Renewal
