import Renewal.Proofs.JsonDocuments

/-! # Reading JSON documents

The reader gives the value of each document whose integers are not too long and whose values are not
nested too deep (`Json.read_eq_ok_iff`). It refuses no document as malformed
(`Json.Document.read_cases`), and where it stops at one of the limits, the text has a long run of
digits or many brackets (`Json.read_error_cases`).
-/

namespace Renewal.Json

variable {α β : Type} {allowed : Numeral → Prop} {gap rest s t : Text} {c close : CodePoint}
  {j : Json} {stop : Stop} {depth limit bound : Nat}

/-- A reader gives a value and what follows it, or it stops for a reason. -/
def Accepts (stops : Stop → Prop) (a : α) (rest : Text) : Except Stop (α × Text) → Prop
  | .ok reading => reading = (a, rest)
  | .error stop => stops stop

/-- A stop of a reader for values that are nested so deep, at one of the limits that a text with
values nested up to another depth passes. -/
def Surpasses (allowed : Numeral → Prop) (limit depth : Nat) : Stop → Prop
  | .fault _ _ => False
  | .integer _ => ∃ n, allowed n ∧ n.Long
  | .tooDeep _ => depth < limit

/-- A text that may follow a value. -/
def Closes (t : Text) : Prop :=
  ∀ c, t.head? = some c →
    isSpace c = true ∨ c = (',' : CodePoint) ∨ c = (']' : CodePoint) ∨ c = ('\x7d' : CodePoint)

/-- A code point with which a part of a document may begin. -/
def IsFirst (c : CodePoint) : Prop :=
  isSpace c = false ∧ c ≠ (']' : CodePoint) ∧ c ≠ ('\x7d' : CodePoint) ∧ c ≠ .ofNat 0xFEFF

instance (c : CodePoint) : Decidable (IsFirst c) :=
  inferInstanceAs (Decidable (_ ∧ _))

/-- A text begins as a part of a document may begin. -/
def Begins (s : Text) : Prop :=
  ∃ c more, s = c :: more ∧ IsFirst c

theorem Accepts.bind {stops : Stop → Prop} {a : α} {b : β} {rest' : Text}
    {read : Except Stop (α × Text)} {next : α × Text → Except Stop (β × Text)}
    (first : Accepts stops a rest read) (second : Accepts stops b rest' (next (a, rest))) :
    Accepts stops b rest' (read >>= next) := by
  cases read with
  | error stop => exact first
  | ok reading =>
    cases first
    exact second

theorem Accepts.mono {stops stops' : Stop → Prop} {a : α} {read : Except Stop (α × Text)}
    (accepts : Accepts stops a rest read) (wider : ∀ stop, stops stop → stops' stop) :
    Accepts stops' a rest read := by
  cases read with
  | error stop => exact wider stop accepts
  | ok reading => exact accepts

theorem isAsciiDigit_of_isSpace (space : isSpace c = true) : c.isAsciiDigit = false := by
  simp only [isSpace, Bool.or_eq_true, beq_iff_eq] at space
  rw [Bool.eq_false_iff]
  intro digit
  have within := CodePoint.code_of_isAsciiDigit digit
  omega

theorem Closes.ends (closes : Closes t) : Ends t := by
  cases t with
  | nil => exact ⟨by rintro _ ⟨⟩, by rintro ⟨⟩, by rintro ⟨⟩, by rintro ⟨⟩⟩
  | cons c rest =>
    rcases closes c rfl with space | rfl | rfl | rfl
    · refine ⟨?_, ?_, ?_, ?_⟩
      · rintro _ ⟨⟩
        exact isAsciiDigit_of_isSpace space
      all_goals
        rintro ⟨⟩
        cases space
    all_goals exact ⟨by rintro _ ⟨⟩; rfl, by rintro ⟨⟩, by rintro ⟨⟩, by rintro ⟨⟩⟩

theorem closes_gap (isGap : IsGap gap) (closes : Closes rest) : Closes (gap ++ rest) := by
  cases gap with
  | nil => exact closes
  | cons c gap =>
    rintro _ ⟨⟩
    exact .inl (isGap c List.mem_cons_self)

theorem Begins.solid (begins : Begins s) (rest : Text) :
    ∀ c, (s ++ rest).head? = some c → isSpace c = false := by
  obtain ⟨c, more, rfl, first⟩ := begins
  rintro _ ⟨⟩
  exact first.1

/-- A value without parts that is not a string begins so. -/
def IsPlainFirst (c : CodePoint) : Prop :=
  IsFirst c ∧ c ≠ ('"' : CodePoint) ∧ opens c = false

instance (c : CodePoint) : Decidable (IsPlainFirst c) :=
  inferInstanceAs (Decidable (_ ∧ _))

theorem isPlainFirst_of_isAsciiDigit (digit : c.isAsciiDigit = true) : IsPlainFirst c := by
  have within := CodePoint.code_of_isAsciiDigit digit
  have other : ∀ d : CodePoint, d.code < 48 ∨ 57 < d.code → c ≠ d := by
    rintro d apart rfl
    omega
  refine ⟨⟨?_, other _ (by decide), other _ (by decide), other _ (by decide)⟩,
    other _ (by decide), ?_⟩
  · rw [Bool.eq_false_iff]
    exact fun space => by simp [isAsciiDigit_of_isSpace space] at digit
  · simp [opens, other ('[' : CodePoint) (by decide), other ('\x7b' : CodePoint) (by decide)]

/-- The first two letters of a word are no digits. -/
theorem word_letters {word : String} (known : (word, j) ∈ wordValues) :
    ∃ c d more, Text.ofString word = c :: d :: more ∧ IsPlainFirst c ∧ c.isAsciiDigit = false ∧
      d.isAsciiDigit = false := by
  have all : ∀ known ∈ wordValues.map Prod.fst, ∃ c d more, Text.ofString known = c :: d :: more ∧
      IsPlainFirst c ∧ c.isAsciiDigit = false ∧ d.isAsciiDigit = false := by
    simp only [wordValues, List.map_cons, List.map_nil, List.forall_mem_cons]
    refine ⟨?_, ?_, ?_, ?_, ?_, ?_, by simp⟩
    all_goals exact ⟨_, _, _, rfl, by decide⟩
  exact all word (List.mem_map_of_mem known)

/-- A digit comes first in a numeral, or second after a sign. -/
theorem Numeral.letters (n : Numeral) : ∃ c more, n.text = c :: more ∧ IsPlainFirst c ∧
    (c.isAsciiDigit = true ∨ ∃ d others, more = d :: others ∧ d.isAsciiDigit = true) := by
  obtain ⟨d, others, cut, digit⟩ := isAsciiDigit_of_allDigits n.digits n.written
  unfold text
  rw [cut]
  cases n.negative with
  | true => exact ⟨_, _, rfl, by decide, .inr ⟨d, _, rfl, digit⟩⟩
  | false => exact ⟨d, _, rfl, isPlainFirst_of_isAsciiDigit digit, .inl digit⟩

theorem value_of_isPlainFirst (plain : IsPlainFirst c) :
    value depth (c :: rest) = scalar (c :: rest) := by
  have notOpen := plain.2.2
  simp only [opens, Bool.or_eq_false_iff, beq_eq_false_iff_ne] at notOpen
  rw [value_cons, if_neg plain.2.1, if_neg notOpen.1, if_neg notOpen.2]

theorem scalar_word {word : String} (known : (word, j) ∈ wordValues) :
    scalar (Text.ofString word ++ rest) = .ok (j, rest) := by
  simp only [wordValues, List.mem_cons, Prod.mk.injEq, List.not_mem_nil, or_false] at known
  rcases known with ⟨rfl, rfl⟩ | ⟨rfl, rfl⟩ | ⟨rfl, rfl⟩ | ⟨rfl, rfl⟩ | ⟨rfl, rfl⟩ | ⟨rfl, rfl⟩
  all_goals rfl

/-- No word stands where a numeral stands. -/
theorem Numeral.not_word (n : Numeral) {word : String} (known : (word, j) ∈ wordValues) :
    ¬Text.ofString word <+: n.text ++ rest := by
  intro start
  obtain ⟨c, d, more, cut, -, first, second⟩ := word_letters known
  obtain ⟨e, others, text, -, digits⟩ := n.letters
  rw [cut, text, List.cons_append, List.cons_prefix_cons] at start
  obtain ⟨rfl, start⟩ := start
  rcases digits with digit | ⟨f, after, rfl, digit⟩
  · simp [first] at digit
  · rw [List.cons_append, List.cons_prefix_cons] at start
    obtain ⟨rfl, -⟩ := start
    simp [second] at digit

theorem scalar_numeral (n : Numeral) (closes : Closes rest) :
    scalar (n.text ++ rest) = if n.Long then .error (.integer (.tooLong n.whole.length))
      else .ok (n.json, rest) := by
  unfold scalar
  split
  · rename_i found
    have starts := List.find?_some found
    exact absurd (List.isPrefixOf_iff_prefix.mp starts)
      (n.not_word (List.mem_of_find?_eq_some found))
  · rw [n.number? closes.ends]
    by_cases long : n.Long
    · rw [if_pos long, if_pos long]
      rfl
    · rw [if_neg long, if_neg long]
      rfl

theorem Simple.begins (simple : Simple allowed j s) : Begins s := by
  cases simple with
  | word known =>
    obtain ⟨c, d, more, cut, plain, -⟩ := word_letters known
    exact ⟨c, _, cut, plain.1⟩
  | @number n allows =>
    obtain ⟨c, more, cut, plain, -⟩ := n.letters
    exact ⟨c, more, cut, plain.1⟩
  | string spells => exact ⟨_, _, rfl, by decide⟩

theorem Writes.begins (writes : Writes allowed limit j s) : Begins s := by
  cases limit with
  | zero => exact Simple.begins writes
  | succ limit =>
    rcases writes with simple | composed
    · exact simple.begins
    · cases composed with
      | noItems | array | noFields | object => exact ⟨_, _, rfl, by decide⟩

theorem Simple.accepts (simple : Simple allowed j s) (closes : Closes rest) (limit depth : Nat) :
    Accepts (Surpasses allowed limit depth) j rest (value depth (s ++ rest)) := by
  cases simple with
  | @word word j known =>
    obtain ⟨c, d, more, cut, plain, -⟩ := word_letters known
    have read : scalar (Text.ofString word ++ rest) = .ok (j, rest) := scalar_word known
    rw [cut, List.cons_append] at read ⊢
    rw [value_of_isPlainFirst plain, read]
    rfl
  | @number n allows =>
    obtain ⟨c, more, cut, plain, -⟩ := n.letters
    have read := scalar_numeral n closes
    rw [cut, List.cons_append] at read ⊢
    rw [value_of_isPlainFirst plain, read]
    split
    · rename_i long
      exact ⟨n, allows, long⟩
    · rfl
  | string spells =>
    rw [List.cons_append, List.append_assoc, value_cons, if_pos rfl, List.singleton_append,
      spells.stringRest]
    rfl

theorem Field.begins {inner : Json → Text → Prop} {f : Text × Json} (field : Field inner f s) :
    Begins s := by
  cases field with
  | mk => exact ⟨_, _, rfl, by decide⟩

theorem Series.begins {part : α → Text → Prop} {as : List α}
    (begins : ∀ a s, part a s → Begins s) (series : Series part as s) : Begins s := by
  cases series with
  | last written isGap | more written isGap isGap' series =>
    obtain ⟨c, more, rfl, first⟩ := begins _ _ written
    exact ⟨c, _, rfl, first⟩

theorem closes_of_isClose (isClose : close = (']' : CodePoint) ∨ close = ('\x7d' : CodePoint)) :
    Closes (close :: rest) := by
  rintro _ ⟨⟩
  exact .inr (.inr isClose)

/-- Parts that are read one by one are read together, up to the bracket that closes them. -/
theorem Series.accepts {part : α → Text → Prop} {read : Text → Except Stop (α × Text)}
    {stops : Stop → Prop} {as : List α}
    (reads : ∀ a s rest, part a s → Closes rest → Accepts stops a rest (read (s ++ rest)))
    (begins : ∀ a s, part a s → Begins s)
    (isClose : close = (']' : CodePoint) ∨ close = ('\x7d' : CodePoint)) (missing : Fault)
    (series : Series part as s) (enough : s.length < bound) :
    Accepts stops as rest (parts read close missing bound (s ++ close :: rest)) := by
  have solid : ∀ c, (close :: rest).head? = some c → isSpace c = false := by
    rintro _ ⟨⟩
    rcases isClose with rfl | rfl <;> rfl
  have notComma : (',' : CodePoint) ≠ close := by
    rcases isClose with rfl | rfl <;> decide
  induction series generalizing bound with
  | @last a s gap written isGap =>
    obtain ⟨bound, rfl⟩ := Nat.exists_eq_add_one_of_ne_zero (Nat.ne_zero_of_lt enough)
    rw [parts, List.append_assoc]
    refine (reads a s _ written (closes_gap isGap (closes_of_isClose isClose))).bind ?_
    dsimp only
    rw [skipSpace_append isGap solid]
    dsimp only
    rw [if_pos rfl]
    rfl
  | @more a as s gap gap' others written isGap isGap' series ih =>
    obtain ⟨bound, rfl⟩ := Nat.exists_eq_add_one_of_ne_zero (Nat.ne_zero_of_lt enough)
    have comma : Closes ((',' : CodePoint) :: (gap' ++ (others ++ close :: rest))) := by
      rintro _ ⟨⟩
      exact .inr (.inl rfl)
    have whole : s ++ (gap ++ (',' : CodePoint) :: (gap' ++ others)) ++ close :: rest =
        s ++ (gap ++ (',' : CodePoint) :: (gap' ++ (others ++ close :: rest))) := by
      simp
    have next := series.begins begins
    rw [parts, whole]
    refine (reads a s _ written (closes_gap isGap comma)).bind ?_
    dsimp only
    rw [skipSpace_append isGap (by rintro _ ⟨⟩; rfl)]
    dsimp only
    rw [if_neg notComma, if_pos rfl, skipSpace_append isGap' (next.solid _)]
    have shorter : others.length < bound := by
      simp only [List.length_append, List.length_cons] at enough
      omega
    exact (ih shorter).bind rfl

/-- A field is read if its value is read. -/
theorem Field.accepts {inner : Json → Text → Prop} {value : Text → Except Stop (Json × Text)}
    {stops : Stop → Prop} {f : Text × Json}
    (reads : ∀ j s rest, inner j s → Closes rest → Accepts stops j rest (value (s ++ rest)))
    (begins : ∀ j s, inner j s → Begins s) (field : Field inner f s) (closes : Closes rest) :
    Accepts stops f rest (fieldAt value (s ++ rest)) := by
  cases field with
  | @mk name t gap gap' s j spells isGap isGap' written =>
    have whole : (('"' : CodePoint) :: (name ++ ('"' : CodePoint) ::
        (gap ++ (':' : CodePoint) :: (gap' ++ s)))) ++ rest = ('"' : CodePoint) ::
        (name ++ ('"' : CodePoint) :: (gap ++ (':' : CodePoint) :: (gap' ++ (s ++ rest)))) := by
      simp
    have colonRead :
        colon (gap ++ (':' : CodePoint) :: (gap' ++ (s ++ rest))) = .ok (s ++ rest) := by
      unfold colon
      rw [skipSpace_append isGap (by rintro _ ⟨⟩; rfl)]
      dsimp only
      rw [if_pos rfl, skipSpace_append isGap' ((begins j s written).solid rest)]
    rw [whole, fieldAt, fieldName, if_pos rfl, spells.stringRest, ok_bind, colonRead, ok_bind]
    exact (reads j s rest written closes).bind rfl

theorem Accepts.map {stops : Stop → Prop} {a : α} {read : Except Stop (α × Text)}
    {f : α × Text → β × Text} (accepts : Accepts stops a rest read) :
    Accepts stops (f (a, rest)).1 (f (a, rest)).2 (read.map f) := by
  cases read with
  | error stop => exact accepts
  | ok reading =>
    cases accepts
    rfl

theorem Begins.head?_ne (begins : Begins s) (rest : Text) :
    (s ++ rest).head? ≠ some (']' : CodePoint) ∧ (s ++ rest).head? ≠ some ('\x7d' : CodePoint) := by
  obtain ⟨c, more, rfl, -, notBracket, notBrace, -⟩ := begins
  exact ⟨fun same => notBracket (Option.some.inj same), fun same => notBrace (Option.some.inj same)⟩

/-- An array or an object is read after its first bracket if the values inside are read. -/
theorem Composed.accepts {inner : Json → Text → Prop} {read : Text → Except Stop (Json × Text)}
    {stops : Stop → Prop}
    (reads : ∀ j s rest, inner j s → Closes rest → Accepts stops j rest (read (s ++ rest)))
    (begins : ∀ j s, inner j s → Begins s) (composed : Composed inner j s) :
    (∃ body, s = ('[' : CodePoint) :: body ∧
      ∀ rest, Accepts stops j rest (arrayRest read (body ++ rest))) ∨
    ∃ body, s = ('\x7b' : CodePoint) :: body ∧
      ∀ rest, Accepts stops j rest (objectRest read (body ++ rest)) := by
  cases composed with
  | @noItems gap isGap =>
    refine .inl ⟨_, rfl, fun rest => ?_⟩
    rw [arrayRest, List.append_assoc, skipSpace_append isGap (by rintro _ ⟨⟩; rfl)]
    rfl
  | @noFields gap isGap =>
    refine .inr ⟨_, rfl, fun rest => ?_⟩
    rw [objectRest, List.append_assoc, skipSpace_append isGap (by rintro _ ⟨⟩; rfl)]
    rfl
  | @array gap s js isGap items =>
    refine .inl ⟨_, rfl, fun rest => ?_⟩
    have first := items.begins begins
    rw [arrayRest, List.append_assoc, List.append_assoc, skipSpace_append isGap (first.solid _)]
    dsimp only
    rw [if_neg (first.head?_ne _).1, items_eq_parts]
    exact (items.accepts reads begins (.inl rfl) .expectingValue
      (by simp only [List.length_append]; omega)).map
  | @object gap s fs isGap fields =>
    refine .inr ⟨_, rfl, fun rest => ?_⟩
    have named := fun (f : Text × Json) s (field : Field inner f s) => field.begins
    have first := fields.begins named
    rw [objectRest, List.append_assoc, List.append_assoc, skipSpace_append isGap (first.solid _)]
    dsimp only
    rw [if_neg (first.head?_ne _).2, fields_eq_parts]
    exact (fields.accepts (fun _ _ _ field => field.accepts reads begins) named (.inr rfl)
      .expectingName (by simp only [List.length_append]; omega)).map

theorem Surpasses.succ (surpasses : Surpasses allowed limit depth stop) :
    Surpasses allowed (limit + 1) (depth + 1) stop := by
  cases stop with
  | fault f left => exact surpasses
  | integer e => exact surpasses
  | tooDeep inside => exact Nat.succ_lt_succ surpasses

/-- A value that is written is read, but for the limits. -/
theorem Writes.accepts (writes : Writes allowed limit j s) (closes : Closes rest) (depth : Nat) :
    Accepts (Surpasses allowed limit depth) j rest (value depth (s ++ rest)) := by
  induction limit generalizing j s rest depth with
  | zero => exact Simple.accepts writes closes 0 depth
  | succ limit ih =>
    rcases writes with simple | composed
    · exact simple.accepts closes (limit + 1) depth
    · cases depth with
      | zero =>
        cases composed with
        | noItems | array | noFields | object => exact Nat.zero_lt_succ limit
      | succ depth =>
        have reads : ∀ j s rest, Writes allowed limit j s → Closes rest →
            Accepts (Surpasses allowed (limit + 1) (depth + 1)) j rest
              (value depth (s ++ rest)) := by
          intro j s rest inside closes
          exact (ih inside closes depth).mono fun _ => Surpasses.succ
        rcases composed.accepts reads fun _ _ inside => inside.begins with
          ⟨body, rfl, read⟩ | ⟨body, rfl, read⟩
        · exact read rest
        · exact read rest

/-- A document is read, but for the limits. -/
theorem Contains.document_cases (contains : Contains allowed limit t j) :
    document t nesting = .ok j ∨
      ∃ stop, document t nesting = .error stop ∧ Surpasses allowed limit nesting stop := by
  obtain ⟨gap, s, gap', rfl, isGap, isGap', writes⟩ := contains
  have closes : Closes gap' := by
    intro c first
    exact .inl (isGap' c (List.mem_of_mem_head? first))
  have accepts := writes.accepts closes nesting
  unfold document
  rw [skipSpace_append isGap (writes.begins.solid gap')]
  cases read : value nesting (s ++ gap') with
  | error stop =>
    rw [read] at accepts
    exact .inr ⟨stop, rfl, accepts⟩
  | ok reading =>
    rw [read] at accepts
    cases accepts
    rw [ok_bind]
    dsimp only
    rw [skipSpace_gap isGap']
    exact .inl rfl

/-- What is read as a document is one. -/
theorem contains_of_document (wide : ∀ n : Numeral, ¬n.Long → allowed n)
    (read : document t nesting = .ok j) : Contains allowed nesting t j := by
  obtain ⟨gap, cut, isGap⟩ := exists_gap t
  have yields := value_yields wide nesting (skipSpace t)
  unfold document at read
  cases inside : value nesting (skipSpace t) with
  | error stop =>
    rw [inside] at read
    cases read
  | ok reading =>
    rw [inside] at read yields
    obtain ⟨s, cut', writes⟩ := yields
    obtain ⟨gap', cut'', isGap'⟩ := exists_gap reading.2
    rw [ok_bind] at read
    dsimp only at read
    split at read
    · rename_i nothing
      rw [List.isEmpty_iff.mp nothing, List.append_nil] at cut''
      cases read
      exact ⟨gap, s, reading.2, by rw [← cut', ← cut], isGap, cut'' ▸ isGap', writes⟩
    · cases read

theorem explains_of_document (read : document t nesting = .error stop) :
    Explains nesting t stop := by
  obtain ⟨gap, cut, isGap⟩ := exists_gap t
  have yields : Yields (skipSpace t) (Writes (fun _ => True) nesting)
      (Explains nesting (skipSpace t)) (value nesting (skipSpace t)) :=
    value_yields (fun _ _ => trivial) _ _
  unfold document at read
  cases inside : value nesting (skipSpace t) with
  | error other =>
    rw [inside] at read yields
    cases read
    rw [cut]
    exact Explains.append yields gap
  | ok reading =>
    rw [inside, ok_bind] at read
    dsimp only at read
    split at read
    · cases read
    · cases read
      trivial

/-- A document has no byte order mark in front. -/
theorem Contains.unmarked (contains : Contains allowed limit t j) :
    t.head? ≠ some (.ofNat 0xFEFF) := by
  obtain ⟨gap, s, gap', rfl, isGap, -, writes⟩ := contains
  obtain ⟨c, more, rfl, first⟩ := writes.begins
  intro mark
  cases gap with
  | nil => exact first.2.2.2 (Option.some.inj mark)
  | cons d gap =>
    have space := isGap d List.mem_cons_self
    rw [Option.some.inj mark] at space
    cases space

theorem read_of_document (unmarked : t.head? ≠ some (.ofNat 0xFEFF))
    (found : document t nesting = .ok j) : read t nesting = .ok j := by
  rw [read, if_neg unmarked, found]
  rfl

theorem document_of_read (found : read t nesting = .ok j) : document t nesting = .ok j := by
  rw [read] at found
  split at found
  · cases found
  · cases inside : document t nesting with
    | error stop =>
      rw [inside] at found
      cases found
    | ok j =>
      rw [inside] at found
      cases found
      rfl

/-- The texts that are read are the documents within the limits. -/
theorem read_eq_ok_iff : read t nesting = .ok j ↔ Fits nesting t j := by
  constructor
  · exact fun found => contains_of_document (fun _ short => short) (document_of_read found)
  · intro fits
    rcases fits.document_cases with found | ⟨stop, -, surpasses⟩
    · exact read_of_document fits.unmarked found
    · cases stop with
      | fault f left => exact surpasses.elim
      | integer e =>
        obtain ⟨n, short, long⟩ := surpasses
        exact absurd long short
      | tooDeep inside => exact absurd surpasses (Nat.lt_irrefl _)

/-- What is read is a document. -/
theorem Document.of_read (found : read t nesting = .ok j) : Document t j :=
  ⟨nesting, contains_of_document (fun _ _ => trivial) (document_of_read found)⟩

/-- A document is read, or it goes beyond the limits. -/
theorem Document.read_cases (isDocument : Document t j) :
    read t nesting = .ok j ∨ (∃ e, read t nesting = .error (.integer e)) ∨
      ∃ inside, read t nesting = .error (.tooDeep inside) := by
  obtain ⟨limit, contains⟩ := isDocument
  rcases contains.document_cases with found | ⟨stop, found, surpasses⟩
  · exact .inl (read_of_document contains.unmarked found)
  · rw [read, if_neg contains.unmarked, found]
    cases stop with
    | fault f left => exact surpasses.elim
    | integer e => exact .inr (.inl ⟨e, rfl⟩)
    | tooDeep inside => exact .inr (.inr ⟨inside, rfl⟩)

/-- A text has more digits in a row or more brackets than are sure to be within the limits. -/
def Immense (nesting : Nat) (t : Text) : Prop :=
  t.HasLongRun ∨ nesting < t.countP opens

theorem not_immense (short : t.length ≤ Integer.digitLimit) (shallow : t.length ≤ nesting) :
    ¬Immense nesting t := by
  rintro (⟨ds, inside, -, long⟩ | many)
  · have within := inside.length_le
    omega
  · exact absurd (List.countP_le_length.trans shallow) (Nat.not_le_of_lt many)

/-- Where a limit is met, there are many digits or many brackets. -/
theorem read_error_cases {e : ReadError} (found : read t nesting = .error e) :
    (∃ f position, e = .malformed f position t) ∨
      ((∀ f position source, e ≠ .malformed f position source) ∧ Immense nesting t) := by
  rw [read] at found
  split at found
  · cases found
    exact .inl ⟨_, _, rfl⟩
  · cases inside : document t nesting with
    | ok j =>
      rw [inside] at found
      cases found
    | error stop =>
      have explains := explains_of_document inside
      rw [inside] at found
      cases stop with
      | fault f left =>
        cases found
        exact .inl ⟨_, _, rfl⟩
      | integer e =>
        cases found
        exact .inr ⟨fun _ _ _ => ReadError.noConfusion, .inl explains⟩
      | tooDeep container =>
        cases found
        exact .inr ⟨fun _ _ _ => ReadError.noConfusion, .inr explains⟩

end Renewal.Json
