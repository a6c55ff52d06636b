import Mathlib.Data.List.Basic
import Renewal.Json.Reader

/-! # Strings in JSON texts

`Json.Spells` says what is written between the quotes of a string: code points as they are, escapes
by letter and by number, and two escapes by number for a character with two surrogates. The reader
takes the texts of this grammar, and gives what they spell (`Json.stringRest_yields`,
`Json.Spells.stringRest`).
-/

namespace Renewal.Json

/-- What a reader gives is written at the front of a text, or it stops for a reason. -/
def Yields {α : Type} (t : Text) (written : α → Text → Prop) (stops : Stop → Prop) :
    Except Stop (α × Text) → Prop
  | .ok (a, rest) => ∃ s, t = s ++ rest ∧ written a s
  | .error stop => stops stop

/-- Reading stops at a fault, not at a limit. -/
def Stop.IsFault : Stop → Prop
  | .fault _ _ => True
  | .integer _ | .tooDeep _ => False

/-- Four hexadecimal digits denote a number. -/
structure Denotes (ds : Text) (n : Nat) : Prop where
  four : ds.length = 4
  value : hexNumber ds = some n

/-- The number of the first of two surrogates. -/
def IsHigh (n : Nat) : Prop :=
  0xD800 ≤ n ∧ n ≤ 0xDBFF

/-- The number of the second of two surrogates. -/
def IsLow (n : Nat) : Prop :=
  0xDC00 ≤ n ∧ n ≤ 0xDFFF

/-- An escape by number. -/
def escape (ds : Text) : Text :=
  ('\\' : CodePoint) :: ('u' : CodePoint) :: ds

/-- The surrogate with a number makes a character with the one that is written next. -/
def Joins (n : Nat) (s : Text) : Prop :=
  IsHigh n ∧ ∃ es k rest, s = escape es ++ rest ∧ Denotes es k ∧ IsLow k

/-- What is written between quotes spells a text. -/
inductive Spells : Text → Text → Prop where
  | nil : Spells [] []
  /-- A code point as it is. -/
  | plain {c : CodePoint} {s m : Text} (printed : 0x1F < c.code) (notQuote : c ≠ ('"' : CodePoint))
      (notEscape : c ≠ ('\\' : CodePoint)) (spells : Spells s m) : Spells (c :: s) (c :: m)
  /-- An escape by letter. -/
  | letter {c d : CodePoint} {s m : Text} (known : letterCode? d = some c) (spells : Spells s m) :
      Spells (('\\' : CodePoint) :: d :: s) (c :: m)
  /-- An escape by number. -/
  | number {n : Nat} {ds s m : Text} (denotes : Denotes ds n) (alone : ¬Joins n s)
      (spells : Spells s m) : Spells (escape ds ++ s) (.ofNat n :: m)
  /-- Two escapes by number for one character. -/
  | pair {n k : Nat} {ds es s m : Text} (denotes : Denotes ds n) (high : IsHigh n)
      (denotes' : Denotes es k) (low : IsLow k) (spells : Spells s m) :
      Spells (escape ds ++ (escape es ++ s)) (.ofNat (joinSurrogates n k) :: m)

variable {α : Type} {c d : CodePoint} {ds es m rest s t : Text} {n k : Nat}

theorem unicodeEscape_eq_ok (denotes : Denotes ds n) (followed : rest ≠ []) :
    unicodeEscape (c :: (ds ++ rest)) = .ok (n, rest) := by
  have digits : ((c :: (ds ++ rest)).drop 1).take 4 = ds := by
    rw [List.drop_one, List.tail_cons, List.take_left' denotes.four]
  have after : (c :: (ds ++ rest)).drop 5 = rest := by
    rw [List.drop_succ_cons, List.drop_left' denotes.four]
  rw [unicodeEscape, digits, after, if_neg (by simpa using followed), denotes.value]

theorem denotes_of_unicodeEscape (read : unicodeEscape t = .ok (n, rest)) :
    rest ≠ [] ∧ ∃ c ds, t = c :: (ds ++ rest) ∧ Denotes ds n := by
  rw [unicodeEscape] at read
  split at read
  · cases read
  · rename_i followed
    split at read
    · cases read
    · rename_i value
      obtain ⟨rfl, rfl⟩ : _ = n ∧ _ = rest := by simpa using read
      have long : 5 < t.length := by
        by_contra short
        exact followed (by simpa using Nat.le_of_not_lt short)
      refine ⟨by simpa using followed, ?_⟩
      cases t with
      | nil => cases long
      | cons c t =>
        refine ⟨c, t.take 4, ?_, ?_, by simpa using value⟩
        · rw [List.drop_succ_cons, List.take_append_drop]
        · rw [List.length_take, Nat.min_eq_left]
          simpa [Nat.lt_succ_iff] using Nat.le_of_lt long

theorem unicodeEscape_error {stop : Stop} (read : unicodeEscape t = .error stop) :
    stop.IsFault := by
  rw [unicodeEscape] at read
  split at read
  · cases read
    trivial
  · split at read
    · cases read
      trivial
    · cases read

theorem ok_bind {β : Type} (a : α) (f : α → Except Stop β) : (Except.ok a >>= f) = f a :=
  rfl

theorem error_bind {β : Type} (stop : Stop) (f : α → Except Stop β) :
    ((Except.error stop : Except Stop α) >>= f) = .error stop :=
  rfl

theorem starts_iff : ("\\u" : Text).isPrefixOf t = true ↔ ∃ rest, t = escape rest := by
  rw [List.isPrefixOf_iff_prefix]
  constructor
  · intro ⟨rest, same⟩
    exact ⟨rest, same.symm⟩
  · intro ⟨rest, same⟩
    exact ⟨rest, same.symm⟩

/-- The end of a text that is not empty makes it longer than what comes before. -/
theorem Denotes.escape_length (denotes : Denotes ds n) (followed : rest ≠ []) :
    6 < (escape ds ++ (s ++ rest)).length := by
  have four := denotes.four
  have some := List.length_pos_iff.mpr followed
  simp only [escape, List.cons_append, List.length_cons, List.length_append]
  omega

theorem Denotes.unique (denotes : Denotes ds n) (denotes' : Denotes es k)
    (same : ds ++ s = es ++ t) : n = k ∧ s = t := by
  obtain ⟨rfl, rfl⟩ := List.append_inj same (denotes.four.trans denotes'.four.symm)
  exact ⟨Option.some.inj (denotes.value.symm.trans denotes'.value), rfl⟩

theorem numberedCode_pair (denotes : Denotes ds n) (high : IsHigh n) (denotes' : Denotes es k)
    (low : IsLow k) (followed : rest ≠ []) :
    numberedCode (c :: (ds ++ (escape es ++ rest))) = .ok (.ofNat (joinSurrogates n k), rest) := by
  have long := denotes'.escape_length (s := []) followed
  rw [List.nil_append] at long
  rw [numberedCode, unicodeEscape_eq_ok denotes (by simp [escape]), ok_bind]
  dsimp only
  rw [if_pos ⟨high.1, high.2, starts_iff.mpr ⟨es ++ rest, rfl⟩, long⟩]
  change (unicodeEscape (('u' : CodePoint) :: (es ++ rest)) >>= _) = _
  rw [unicodeEscape_eq_ok denotes' followed, ok_bind]
  exact if_pos low

/-- An escape by number that makes no character with the next one stands for itself. -/
theorem numberedCode_alone (denotes : Denotes ds n) (followed : rest ≠ [])
    (next : IsHigh n → ∀ after, s ++ rest = escape after →
      ∃ es k last, s = escape es ++ last ∧ Denotes es k ∧ ¬IsLow k) :
    numberedCode (c :: (ds ++ (s ++ rest))) = .ok (.ofNat n, s ++ rest) := by
  rw [numberedCode, unicodeEscape_eq_ok denotes (by simp [followed]), ok_bind]
  dsimp only
  split
  · rename_i joins
    obtain ⟨after, cut⟩ := starts_iff.mp joins.2.2.1
    obtain ⟨es, k, last, rfl, denotes', notLow⟩ := next ⟨joins.1, joins.2.1⟩ after cut
    rw [List.append_assoc]
    change (unicodeEscape (('u' : CodePoint) :: (es ++ (last ++ rest))) >>= _) = _
    rw [unicodeEscape_eq_ok denotes' (by simp [followed]), ok_bind]
    exact if_neg notLow
  · rfl

/-- What an escape by number stands for. -/
theorem numberedCode_cases (read : numberedCode t = .ok (c, rest)) :
    (∃ u ds n, t = u :: (ds ++ rest) ∧ Denotes ds n ∧ c = .ofNat n ∧
      ∀ s after, rest = s ++ after → after ≠ [] → ¬Joins n s) ∨
    ∃ u ds n es k, t = u :: (ds ++ (escape es ++ rest)) ∧ Denotes ds n ∧ IsHigh n ∧
      Denotes es k ∧ IsLow k ∧ c = .ofNat (joinSurrogates n k) := by
  rw [numberedCode] at read
  cases first : unicodeEscape t with
  | error stop =>
    rw [first, error_bind] at read
    cases read
  | ok reading =>
    obtain ⟨n, after⟩ := reading
    obtain ⟨-, u, ds, rfl, denotes⟩ := denotes_of_unicodeEscape first
    rw [first, ok_bind] at read
    dsimp only at read
    split at read
    · rename_i joins
      obtain ⟨high, low, starts, -⟩ := joins
      obtain ⟨last, rfl⟩ := starts_iff.mp starts
      cases second : unicodeEscape (escape last).tail with
      | error stop =>
        rw [second, error_bind] at read
        cases read
      | ok reading =>
        obtain ⟨k, end'⟩ := reading
        obtain ⟨-, u', es, cut, denotes'⟩ := denotes_of_unicodeEscape second
        obtain ⟨rfl, rfl⟩ := List.cons.inj cut
        rw [second, ok_bind] at read
        dsimp only at read
        split at read
        · rename_i isLow
          obtain ⟨rfl, rfl⟩ := Prod.mk.inj (Except.ok.inj read)
          exact .inr ⟨u, ds, n, es, k, rfl, denotes, ⟨high, low⟩, denotes', isLow, rfl⟩
        · rename_i notLow
          cases read
          refine .inl ⟨u, ds, n, rfl, denotes, rfl, ?_⟩
          intro s after cut' _ joins
          obtain ⟨-, es', k', rest', rfl, denotes'', isLow⟩ := joins
          rw [List.append_assoc] at cut'
          have same := (List.cons.inj (List.cons.inj cut').2).2
          obtain ⟨rfl, -⟩ := denotes'.unique denotes'' same
          exact notLow isLow
    · rename_i apart
      cases read
      refine .inl ⟨u, ds, n, rfl, denotes, rfl, ?_⟩
      intro s after cut some joins
      obtain ⟨high, es, k, rest', rfl, denotes', -⟩ := joins
      rw [List.append_assoc] at cut
      apply apart
      subst cut
      exact ⟨high.1, high.2, starts_iff.mpr ⟨_, rfl⟩, denotes'.escape_length some⟩

theorem numberedCode_error {stop : Stop} (read : numberedCode t = .error stop) : stop.IsFault := by
  rw [numberedCode] at read
  cases first : unicodeEscape t with
  | error stop' =>
    rw [first, error_bind] at read
    cases read
    exact unicodeEscape_error first
  | ok reading =>
    rw [first, ok_bind] at read
    dsimp only at read
    split at read
    · cases second : unicodeEscape reading.2.tail with
      | error stop' =>
        rw [second, error_bind] at read
        cases read
        exact unicodeEscape_error second
      | ok reading' =>
        rw [second, ok_bind] at read
        split at read <;> cases read
    · cases read

/-- What reading one code point of a string comes to: the end of the string, or a code point that
what is taken spells, whatever the rest of the string spells. -/
theorem stringCode_cases (start : Nat) (t : Text) :
    (∃ rest, t = ('"' : CodePoint) :: rest ∧ stringCode start t = .ok (none, rest)) ∨
    (∃ c s rest, t = s ++ rest ∧ stringCode start t = .ok (some c, rest) ∧
      ∀ s' m after, rest = s' ++ after → after ≠ [] → Spells s' m → Spells (s ++ s') (c :: m)) ∨
    ∃ stop, stringCode start t = .error stop ∧ stop.IsFault := by
  cases t with
  | nil => exact .inr (.inr ⟨_, rfl, trivial⟩)
  | cons c rest =>
    unfold stringCode
    dsimp only
    split
    · rename_i quote
      exact .inl ⟨rest, by rw [quote], rfl⟩
    split
    · exact .inr (.inr ⟨_, rfl, trivial⟩)
    split
    · rename_i quote control backslash
      subst backslash
      cases rest with
      | nil => exact .inr (.inr ⟨_, rfl, trivial⟩)
      | cons d after =>
        dsimp only
        split
        · rename_i numbered
          subst numbered
          cases read : numberedCode (('u' : CodePoint) :: after) with
          | error stop => exact .inr (.inr ⟨stop, rfl, numberedCode_error read⟩)
          | ok reading =>
            obtain ⟨c, last⟩ := reading
            refine .inr (.inl ⟨c, ?_⟩)
            rcases numberedCode_cases read with
              ⟨u, ds, n, cut, denotes, value, alone⟩ |
              ⟨u, ds, n, es, k, cut, denotes, high, denotes', low, value⟩
            · obtain ⟨rfl, rfl⟩ := List.cons.inj cut
              refine ⟨escape ds, last, rfl, rfl, ?_⟩
              intro s' m after same some spells
              rw [value]
              exact .number denotes (alone s' after same some) spells
            · obtain ⟨rfl, rfl⟩ := List.cons.inj cut
              refine ⟨escape ds ++ escape es, last, by simp [escape], rfl, ?_⟩
              intro s' m after same some spells
              rw [List.append_assoc, value]
              exact .pair denotes high denotes' low spells
        · cases known : letterCode? d with
          | none => exact .inr (.inr ⟨_, rfl, trivial⟩)
          | some c =>
            refine .inr (.inl ⟨c, [('\\' : CodePoint), d], after, rfl, rfl, ?_⟩)
            intro s' m _ _ _ spells
            exact .letter known spells
    · rename_i quote control backslash
      refine .inr (.inl ⟨c, [c], rest, rfl, rfl, ?_⟩)
      intro s' m _ _ _ spells
      exact .plain (Nat.lt_of_not_le control) quote backslash spells

/-- What is read up to the closing quote spells the text that is given. -/
theorem stringBody_yields (start bound : Nat) (t : Text) :
    Yields t (fun m s => ∃ body, s = body ++ [('"' : CodePoint)] ∧ Spells body m) Stop.IsFault
      (stringBody start bound t) := by
  induction bound generalizing t with
  | zero => trivial
  | succ bound ih =>
    rw [stringBody]
    rcases stringCode_cases start t with
      ⟨rest, rfl, read⟩ | ⟨c, s, rest, rfl, read, spells⟩ | ⟨stop, read, fault⟩
    · rw [read, ok_bind]
      exact ⟨_, rfl, [], rfl, .nil⟩
    · rw [read, ok_bind]
      dsimp only
      have later := ih rest
      cases body : stringBody start bound rest with
      | error stop =>
        rw [body] at later
        exact later
      | ok reading =>
        obtain ⟨m, after⟩ := reading
        rw [body] at later
        obtain ⟨_, cut, s', rfl, spelled⟩ := later
        refine ⟨s ++ (s' ++ [('"' : CodePoint)]), by simp [cut], s ++ s', by simp, ?_⟩
        rw [List.append_assoc] at cut
        exact spells s' m _ cut (by simp) spelled
    · rw [read]
      exact fault

/-- What is read after the opening quote of a string. -/
theorem stringRest_yields (t : Text) :
    Yields t (fun m s => ∃ body, s = body ++ [('"' : CodePoint)] ∧ Spells body m) Stop.IsFault
      (stringRest t) :=
  stringBody_yields _ _ t

/-- An escape by number stands where a backslash and the letter u do. -/
theorem Spells.escape_cases (spells : Spells (escape t) m) :
    ∃ ds n rest, t = ds ++ rest ∧ Denotes ds n := by
  generalize written : escape t = s at spells
  cases spells with
  | nil => cases written
  | plain printed notQuote notEscape spells =>
    exact absurd (List.cons.inj written).1.symm notEscape
  | letter known spells =>
    obtain ⟨rfl, -⟩ := List.cons.inj (List.cons.inj written).2
    cases known
  | number denotes alone spells =>
    exact ⟨_, _, _, (List.cons.inj (List.cons.inj written).2).2, denotes⟩
  | pair denotes high denotes' low spells =>
    exact ⟨_, _, _, (List.cons.inj (List.cons.inj written).2).2, denotes⟩

/-- The closing quote is no part of an escape. -/
theorem escape_of_append (cut : s ++ ('"' : CodePoint) :: rest = escape t) :
    ∃ s', s = escape s' := by
  cases s with
  | nil => cases (List.cons.inj cut).1
  | cons a s =>
    obtain ⟨rfl, next⟩ := List.cons.inj cut
    cases s with
    | nil => cases (List.cons.inj next).1
    | cons b s =>
      obtain ⟨rfl, -⟩ := List.cons.inj next
      exact ⟨s, rfl⟩

theorem stringCode_plain (printed : 0x1F < c.code) (notQuote : c ≠ ('"' : CodePoint))
    (notEscape : c ≠ ('\\' : CodePoint)) (start : Nat) :
    stringCode start (c :: t) = .ok (some c, t) := by
  unfold stringCode
  dsimp only
  rw [if_neg notQuote, if_neg (Nat.not_le.mpr printed), if_neg notEscape]

theorem stringCode_letter (known : letterCode? d = some c) (start : Nat) :
    stringCode start (('\\' : CodePoint) :: d :: t) = .ok (some c, t) := by
  have notNumbered : d ≠ ('u' : CodePoint) := by
    rintro rfl
    cases known
  change (if d = ('u' : CodePoint) then _ else _) = _
  rw [if_neg notNumbered, known]

theorem stringCode_numbered (read : numberedCode (('u' : CodePoint) :: t) = .ok (c, rest))
    (start : Nat) : stringCode start (escape t) = .ok (some c, rest) := by
  change (numberedCode (('u' : CodePoint) :: t)).map _ = _
  rw [read]
  rfl

theorem stringBody_cons {start bound : Nat} {after : Text}
    (read : stringCode start t = .ok (some c, rest))
    (later : stringBody start bound rest = .ok (m, after)) :
    stringBody start (bound + 1) t = .ok (c :: m, after) := by
  rw [stringBody, read, ok_bind]
  dsimp only
  rw [later, ok_bind]
  rfl

/-- What spells a text is read as that text. -/
theorem Spells.stringBody (spells : Spells s m) {start bound : Nat} (enough : s.length < bound) :
    stringBody start bound (s ++ ('"' : CodePoint) :: rest) = .ok (m, rest) := by
  induction spells generalizing bound with
  | nil =>
    obtain ⟨bound, rfl⟩ := Nat.exists_eq_succ_of_ne_zero (Nat.ne_of_gt enough)
    rfl
  | @plain c s m printed notQuote notEscape spells ih =>
    obtain ⟨bound, rfl⟩ := Nat.exists_eq_succ_of_ne_zero (Nat.ne_of_gt (Nat.zero_lt_of_lt enough))
    rw [List.length_cons, Nat.succ_lt_succ_iff] at enough
    exact stringBody_cons (stringCode_plain printed notQuote notEscape start) (ih enough)
  | @letter c d s m known spells ih =>
    obtain ⟨bound, rfl⟩ := Nat.exists_eq_succ_of_ne_zero (Nat.ne_of_gt (Nat.zero_lt_of_lt enough))
    rw [List.length_cons, List.length_cons, Nat.succ_lt_succ_iff] at enough
    exact stringBody_cons (stringCode_letter known start) (ih (by omega))
  | @number n ds s m denotes alone spells ih =>
    obtain ⟨bound, rfl⟩ := Nat.exists_eq_succ_of_ne_zero (Nat.ne_of_gt (Nat.zero_lt_of_lt enough))
    rw [List.append_assoc]
    refine stringBody_cons (stringCode_numbered (numberedCode_alone denotes (by simp) ?_) start)
      (ih ?_)
    · intro high after cut
      obtain ⟨s, rfl⟩ := escape_of_append cut
      obtain ⟨es, k, last, rfl, denotes'⟩ := spells.escape_cases
      exact ⟨es, k, last, rfl, denotes', fun low => alone ⟨high, es, k, last, rfl, denotes', low⟩⟩
    · simp only [escape, List.cons_append, List.length_cons, List.length_append] at enough
      omega
  | @pair n k ds es s m denotes high denotes' low spells ih =>
    obtain ⟨bound, rfl⟩ := Nat.exists_eq_succ_of_ne_zero (Nat.ne_of_gt (Nat.zero_lt_of_lt enough))
    rw [List.append_assoc, List.append_assoc]
    refine stringBody_cons
      (stringCode_numbered (numberedCode_pair denotes high denotes' low (by simp)) start) (ih ?_)
    simp only [escape, List.cons_append, List.length_cons, List.length_append] at enough
    omega

theorem Spells.stringRest (spells : Spells s m) :
    stringRest (s ++ ('"' : CodePoint) :: rest) = .ok (m, rest) := by
  apply spells.stringBody
  rw [List.length_append]
  omega

end Renewal.Json
