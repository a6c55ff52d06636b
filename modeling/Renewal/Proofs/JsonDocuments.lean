import Renewal.Proofs.JsonNumerals
import Renewal.Proofs.JsonStrings

/-! # JSON documents

`Json.Writes` is the grammar of JSON values that are nested up to some depth, and `Json.Document`
that of values with white space around them. What the reader gives for a value is written at the
front of the text, within the limits for integers and for nesting. Where it stops at one of the
limits, the text has a long run of digits or many brackets (`Json.value_yields`).
-/

namespace Renewal.Json

/-- White space between the parts of a document. -/
def IsGap (t : Text) : Prop :=
  ∀ c ∈ t, isSpace c = true

/-- A text writes a value that has no parts, with a numeral that is allowed. -/
inductive Simple (allowed : Numeral → Prop) : Json → Text → Prop where
  | word {word : String} {j : Json} (known : (word, j) ∈ wordValues) :
      Simple allowed j (Text.ofString word)
  | number {n : Numeral} (allows : allowed n) : Simple allowed n.json n.text
  | string {s t : Text} (spells : Spells s t) :
      Simple allowed (.string t) (('"' : CodePoint) :: (s ++ [('"' : CodePoint)]))

/-- A text writes parts, at least one, with commas between them. -/
inductive Series {α : Type} (part : α → Text → Prop) : List α → Text → Prop where
  | last {a : α} {s gap : Text} (written : part a s) (isGap : IsGap gap) :
      Series part [a] (s ++ gap)
  | more {a : α} {as : List α} {s gap gap' rest : Text} (written : part a s) (isGap : IsGap gap)
      (isGap' : IsGap gap') (others : Series part as rest) :
      Series part (a :: as) (s ++ (gap ++ (',' : CodePoint) :: (gap' ++ rest)))

/-- A text writes a field: its name, a colon and its value. -/
inductive Field (inner : Json → Text → Prop) : Text × Json → Text → Prop where
  | mk {name t gap gap' s : Text} {j : Json} (spells : Spells name t) (isGap : IsGap gap)
      (isGap' : IsGap gap') (written : inner j s) :
      Field inner (t, j) (('"' : CodePoint) ::
        (name ++ ('"' : CodePoint) :: (gap ++ (':' : CodePoint) :: (gap' ++ s))))

/-- A text writes an array or an object of values that are written inside. -/
inductive Composed (inner : Json → Text → Prop) : Json → Text → Prop where
  | noItems {gap : Text} (isGap : IsGap gap) :
      Composed inner (.list []) (('[' : CodePoint) :: (gap ++ [(']' : CodePoint)]))
  | array {gap s : Text} {js : List Json} (isGap : IsGap gap) (items : Series inner js s) :
      Composed inner (.list js) (('[' : CodePoint) :: (gap ++ (s ++ [(']' : CodePoint)])))
  | noFields {gap : Text} (isGap : IsGap gap) :
      Composed inner (.object []) (('\x7b' : CodePoint) :: (gap ++ [('\x7d' : CodePoint)]))
  /-- Of several fields with one name the last counts. -/
  | object {gap s : Text} {fs : List (Text × Json)} (isGap : IsGap gap)
      (fields : Series (Field inner) fs s) :
      Composed inner (.object (Fields.ofList fs))
        (('\x7b' : CodePoint) :: (gap ++ (s ++ [('\x7d' : CodePoint)])))

/-- A text writes a value in which arrays and objects are nested at most so deep. -/
def Writes (allowed : Numeral → Prop) : (depth : Nat) → Json → Text → Prop
  | 0, j, s => Simple allowed j s
  | depth + 1, j, s => Simple allowed j s ∨ Composed (Writes allowed depth) j s

/-- A text is a value with white space around it. -/
def Contains (allowed : Numeral → Prop) (depth : Nat) (t : Text) (j : Json) : Prop :=
  ∃ gap s gap', t = gap ++ (s ++ gap') ∧ IsGap gap ∧ IsGap gap' ∧ Writes allowed depth j s

/-- A text is a JSON document. -/
def Document (t : Text) (j : Json) : Prop :=
  ∃ depth, Contains (fun _ => True) depth t j

/-- A text is a JSON document within the limit for integers and a limit for nesting. -/
def Fits (nesting : Nat) (t : Text) (j : Json) : Prop :=
  Contains (fun n => ¬n.Long) nesting t j

/-- A bracket that opens an array or an object. -/
def opens (c : CodePoint) : Bool :=
  c == ('[' : CodePoint) || c == ('\x7b' : CodePoint)

/-- Why reading a text with values nested so deep may stop. -/
def Explains (depth : Nat) (t : Text) : Stop → Prop
  | .fault _ _ => True
  | .integer _ => t.HasLongRun
  | .tooDeep _ => depth < t.countP opens

variable {α β : Type} {allowed : Numeral → Prop} {gap rest s t : Text} {c close : CodePoint}
  {j : Json} {stop : Stop} {depth limit bound : Nat}

theorem Explains.of_isFault (fault : stop.IsFault) : Explains depth t stop := by
  cases stop with
  | fault f left => trivial
  | integer e | tooDeep inside => exact fault.elim

/-- What explains a stop in the rest of a text explains it in the whole. -/
theorem Explains.append (explains : Explains depth t stop) (s : Text) :
    Explains depth (s ++ t) stop := by
  cases stop with
  | fault f left => trivial
  | integer e =>
    obtain ⟨ds, inside, run⟩ := explains
    exact ⟨ds, inside.trans (List.suffix_append s t).isInfix, run⟩
  | tooDeep inside =>
    change depth < (s ++ t).countP opens
    rw [List.countP_append]
    exact Nat.lt_add_left _ explains

theorem Explains.opened (explains : Explains depth t stop) (isOpen : opens c = true) :
    Explains (depth + 1) (c :: t) stop := by
  cases stop with
  | fault f left => trivial
  | integer e =>
    obtain ⟨ds, inside, run⟩ := explains
    exact ⟨ds, inside.trans (List.suffix_cons c t).isInfix, run⟩
  | tooDeep inside =>
    change depth + 1 < (c :: t).countP opens
    rw [List.countP_cons_of_pos isOpen]
    exact Nat.succ_lt_succ explains

/-! ## White space -/

theorem exists_gap (t : Text) : ∃ gap, t = gap ++ skipSpace t ∧ IsGap gap :=
  ⟨t.takeWhile isSpace, List.takeWhile_append_dropWhile.symm, fun _ => List.mem_takeWhile_imp⟩

/-- White space ends where a text does not begin with it. -/
theorem skipSpace_append (isGap : IsGap gap)
    (solid : ∀ c, rest.head? = some c → isSpace c = false) : skipSpace (gap ++ rest) = rest := by
  unfold skipSpace
  rw [List.dropWhile_append_of_pos isGap]
  cases rest with
  | nil => rfl
  | cons c rest => rw [List.dropWhile_cons_of_neg (by simp [solid c rfl])]

theorem skipSpace_gap (isGap : IsGap gap) : skipSpace gap = [] :=
  List.dropWhile_eq_nil_iff.mpr isGap

/-! ## Arrays and objects are read alike -/

/-- Reads parts with commas between them, up to the bracket that closes them. -/
def parts (read : Text → Except Stop (α × Text)) (close : CodePoint) (missing : Fault) :
    (bound : Nat) → Text → Except Stop (List α × Text)
  | 0, t => faultAt missing t
  | bound + 1, t => do
    let part ← read t
    match skipSpace part.2 with
    | [] => faultAt .expectingComma []
    | c :: after =>
      if c = close then return ([part.1], after)
      else if c = (',' : CodePoint) then
        let others ← parts read close missing bound (skipSpace after)
        return (part.1 :: others.1, others.2)
      else faultAt .expectingComma (c :: after)

/-- Reads a field. -/
def fieldAt (value : Text → Except Stop (Json × Text)) (t : Text) :
    Except Stop ((Text × Json) × Text) := do
  let name ← fieldName t
  let rest ← colon name.2
  let reading ← value rest
  return ((name.1, reading.1), reading.2)

theorem items_eq_parts (value : Text → Except Stop (Json × Text)) (bound : Nat) (t : Text) :
    items value bound t = parts value (']' : CodePoint) .expectingValue bound t := by
  induction bound generalizing t with
  | zero => rfl
  | succ bound ih =>
    rw [items, parts]
    cases value t with
    | error stop => rfl
    | ok reading =>
      rw [ok_bind, ok_bind]
      dsimp only
      cases skipSpace reading.2 with
      | nil => rfl
      | cons c after =>
        dsimp only
        rw [ih]

theorem fields_eq_parts (value : Text → Except Stop (Json × Text)) (bound : Nat) (t : Text) :
    fields value bound t = parts (fieldAt value) ('\x7d' : CodePoint) .expectingName bound t := by
  induction bound generalizing t with
  | zero => rfl
  | succ bound ih =>
    rw [fields, parts, fieldAt]
    cases fieldName t with
    | error stop => rfl
    | ok name =>
      rw [ok_bind, ok_bind]
      dsimp only
      cases colon name.2 with
      | error stop => rfl
      | ok rest =>
        rw [ok_bind, ok_bind]
        cases value rest with
        | error stop => rfl
        | ok reading =>
          rw [ok_bind, ok_bind, pure_bind]
          cases skipSpace reading.2 with
          | nil => rfl
          | cons c after =>
            dsimp only
            rw [ih]

/-! ## What is read is written -/

namespace Yields

variable {written : α → Text → Prop} {written' : β → Text → Prop} {stops stops' : Stop → Prop}
  {read : Except Stop (α × Text)}

theorem bind {next : α × Text → Except Stop (β × Text)} (first : Yields t written stops read)
    (then_ : ∀ a s rest, t = s ++ rest → written a s → Yields t written' stops (next (a, rest))) :
    Yields t written' stops (read >>= next) := by
  cases read with
  | error stop => exact first
  | ok reading =>
    obtain ⟨s, cut, writes⟩ := first
    exact then_ _ s _ cut writes

theorem mono {written' : α → Text → Prop} (yields : Yields t written stops read)
    (writes : ∀ a s, written a s → written' a s) (wider : ∀ stop, stops stop → stops' stop) :
    Yields t written' stops' read := by
  cases read with
  | error stop => exact wider stop yields
  | ok reading =>
    obtain ⟨s, cut, inside⟩ := yields
    exact ⟨s, cut, writes _ s inside⟩

theorem cons (yields : Yields t written stops read) (c : CodePoint) :
    Yields (c :: t) (fun a u => ∃ v, u = c :: v ∧ written a v) stops read := by
  cases read with
  | error stop => exact yields
  | ok reading =>
    obtain ⟨v, cut, writes⟩ := yields
    exact ⟨c :: v, by rw [cut, List.cons_append], v, rfl, writes⟩

/-- What is read from the rest of a text is read from the whole. -/
theorem append (yields : Yields t written (Explains depth t) read) (s : Text) :
    Yields (s ++ t) (fun a u => ∃ v, u = s ++ v ∧ written a v) (Explains depth (s ++ t)) read := by
  cases read with
  | error stop => exact Explains.append yields s
  | ok reading =>
    obtain ⟨v, cut, writes⟩ := yields
    exact ⟨s ++ v, by rw [cut, List.append_assoc], v, rfl, writes⟩

/-- What is read after a bracket, with the bracket in front. -/
theorem opened {written' : α → Text → Prop} (yields : Yields t written (Explains depth t) read)
    (isOpen : opens c = true) (writes : ∀ a s, written a s → written' a (c :: s)) :
    Yields (c :: t) written' (Explains (depth + 1) (c :: t)) read := by
  cases read with
  | error stop => exact Explains.opened yields isOpen
  | ok reading =>
    obtain ⟨s, cut, inside⟩ := yields
    exact ⟨c :: s, by rw [cut, List.cons_append], writes _ s inside⟩

end Yields

theorem parts_yields {part : α → Text → Prop} {read : Text → Except Stop (α × Text)}
    (reads : ∀ t, Yields t part (Explains depth t) (read t)) (close : CodePoint) (missing : Fault)
    (bound : Nat) (t : Text) :
    Yields t (fun as s => ∃ body, s = body ++ [close] ∧ Series part as body) (Explains depth t)
      (parts read close missing bound t) := by
  induction bound generalizing t with
  | zero => trivial
  | succ bound ih =>
    rw [parts]
    refine (reads t).bind ?_
    rintro a s rest rfl writes
    obtain ⟨gap, cut, isGap⟩ := exists_gap rest
    dsimp only
    split
    · trivial
    · rename_i c after found
      rw [found] at cut
      subst cut
      split
      · rename_i closes
        subst closes
        exact ⟨s ++ (gap ++ [c]), by simp, s ++ gap, by simp, .last writes isGap⟩
      · split
        · rename_i comma
          subst comma
          obtain ⟨gap', cut', isGap'⟩ := exists_gap after
          have others := (ih (skipSpace after)).append (s ++ (gap ++ (',' : CodePoint) :: gap'))
          have whole : s ++ (gap ++ (',' : CodePoint) :: gap') ++ skipSpace after =
              s ++ (gap ++ (',' : CodePoint) :: after) := by
            conv_rhs => rw [cut']
            simp
          rw [whole] at others
          refine others.bind ?_
          rintro as _ rest cut ⟨_, rfl, body, rfl, series⟩
          exact ⟨_, cut, s ++ (gap ++ (',' : CodePoint) :: (gap' ++ body)), by simp,
            .more writes isGap isGap' series⟩
        · trivial

theorem fieldName_yields (t : Text) :
    Yields t (fun m s => ∃ name, s = ('"' : CodePoint) :: (name ++ [('"' : CodePoint)]) ∧
      Spells name m) Stop.IsFault (fieldName t) := by
  unfold fieldName
  split
  · trivial
  · split
    · rename_i c rest quote
      subst quote
      refine ((stringRest_yields rest).cons _).mono ?_ fun _ fault => fault
      rintro m _ ⟨_, rfl, name, rfl, spells⟩
      exact ⟨name, rfl, spells⟩
    · trivial

theorem colon_cases (t : Text) :
    (∃ gap gap' rest, t = gap ++ (':' : CodePoint) :: (gap' ++ rest) ∧ IsGap gap ∧ IsGap gap' ∧
      colon t = .ok rest) ∨ ∃ stop, colon t = .error stop ∧ stop.IsFault := by
  unfold colon
  obtain ⟨gap, cut, isGap⟩ := exists_gap t
  split
  · exact .inr ⟨_, rfl, trivial⟩
  · rename_i c rest found
    rw [found] at cut
    split
    · rename_i isColon
      subst isColon
      obtain ⟨gap', cut', isGap'⟩ := exists_gap rest
      refine .inl ⟨gap, gap', skipSpace rest, ?_, isGap, isGap', rfl⟩
      rw [← cut', cut]
    · exact .inr ⟨_, rfl, trivial⟩

theorem fieldAt_yields {inner : Json → Text → Prop} {value : Text → Except Stop (Json × Text)}
    (reads : ∀ t, Yields t inner (Explains depth t) (value t)) (t : Text) :
    Yields t (Field inner) (Explains depth t) (fieldAt value t) := by
  unfold fieldAt
  refine ((fieldName_yields t).mono (fun _ _ written => written)
    fun _ => Explains.of_isFault).bind ?_
  rintro m _ rest rfl ⟨name, rfl, spells⟩
  dsimp only
  rcases colon_cases rest with ⟨gap, gap', rest, rfl, isGap, isGap', read⟩ | ⟨stop, read, fault⟩
  · rw [read, ok_bind]
    have front := (reads rest).append (('"' : CodePoint) ::
      (name ++ ('"' : CodePoint) :: (gap ++ (':' : CodePoint) :: gap')))
    have whole : ('"' : CodePoint) :: (name ++ ('"' : CodePoint) ::
        (gap ++ (':' : CodePoint) :: gap')) ++ rest = ('"' : CodePoint) ::
        (name ++ [('"' : CodePoint)]) ++ (gap ++ (':' : CodePoint) :: (gap' ++ rest)) := by
      simp
    rw [whole] at front
    refine front.bind ?_
    rintro j _ rest cut ⟨s, rfl, writes⟩
    refine ⟨_, cut, ?_⟩
    simpa using Field.mk spells isGap isGap' writes
  · rw [read, error_bind]
    exact Explains.of_isFault fault

theorem length_ofString (word : String) : (Text.ofString word).length = word.length := by
  rw [Text.ofString, List.length_map, String.length_toList]

theorem scalar_yields (wide : ∀ n : Numeral, ¬n.Long → allowed n) (depth : Nat) (t : Text) :
    Yields t (Simple allowed) (Explains depth t) (scalar t) := by
  unfold scalar
  split
  · rename_i word j found
    have starts := List.find?_some found
    obtain ⟨rest, rfl⟩ := List.isPrefixOf_iff_prefix.mp starts
    rw [List.drop_left' (length_ofString word)]
    exact ⟨_, rfl, .word (List.mem_of_find?_eq_some found)⟩
  · rcases number?_cases t with read | ⟨n, rest, rfl, short, read⟩ | ⟨e, read, long⟩
    · rw [read]
      trivial
    · rw [read]
      exact ⟨_, rfl, .number (wide n short)⟩
    · rw [read]
      exact long

theorem value_cons (depth : Nat) (c : CodePoint) (rest : Text) :
    value depth (c :: rest) =
      if c = ('"' : CodePoint) then
        (stringRest rest).map fun reading => (.string reading.1, reading.2)
      else if c = ('[' : CodePoint) then
        depth.casesOn (.error (.tooDeep .array)) fun depth => arrayRest (value depth) rest
      else if c = ('\x7b' : CodePoint) then
        depth.casesOn (.error (.tooDeep .object)) fun depth => objectRest (value depth) rest
      else scalar (c :: rest) := by
  cases depth with
  | zero =>
    rw [value]
    rfl
  | succ depth => rw [value]

theorem arrayRest_yields {inner : Json → Text → Prop} {value : Text → Except Stop (Json × Text)}
    (reads : ∀ t, Yields t inner (Explains depth t) (value t)) (t : Text) :
    Yields t (fun j s => Composed inner j (('[' : CodePoint) :: s)) (Explains depth t)
      (arrayRest value t) := by
  obtain ⟨gap, cut, isGap⟩ := exists_gap t
  unfold arrayRest
  dsimp only
  split
  · rename_i closes
    obtain ⟨rest, found⟩ := List.head?_eq_some_iff.mp closes
    rw [found] at cut ⊢
    exact ⟨gap ++ [(']' : CodePoint)], by rw [cut]; simp, .noItems isGap⟩
  · rw [items_eq_parts]
    have items := (parts_yields reads (']' : CodePoint) .expectingValue
      ((skipSpace t).length + 1) (skipSpace t)).append gap
    rw [← cut] at items
    refine items.bind ?_
    rintro js _ rest cut ⟨_, rfl, body, rfl, series⟩
    exact ⟨_, cut, .array isGap series⟩

theorem objectRest_yields {inner : Json → Text → Prop} {value : Text → Except Stop (Json × Text)}
    (reads : ∀ t, Yields t inner (Explains depth t) (value t)) (t : Text) :
    Yields t (fun j s => Composed inner j (('\x7b' : CodePoint) :: s)) (Explains depth t)
      (objectRest value t) := by
  obtain ⟨gap, cut, isGap⟩ := exists_gap t
  unfold objectRest
  dsimp only
  split
  · rename_i closes
    obtain ⟨rest, found⟩ := List.head?_eq_some_iff.mp closes
    rw [found] at cut ⊢
    exact ⟨gap ++ [('\x7d' : CodePoint)], by rw [cut]; simp, .noFields isGap⟩
  · rw [fields_eq_parts]
    have fields := (parts_yields (fieldAt_yields reads) ('\x7d' : CodePoint) .expectingName
      ((skipSpace t).length + 1) (skipSpace t)).append gap
    rw [← cut] at fields
    refine fields.bind ?_
    rintro fs _ rest cut ⟨_, rfl, body, rfl, series⟩
    exact ⟨_, cut, .object isGap series⟩

theorem stringRest_writes (t : Text) :
    Yields (('"' : CodePoint) :: t) (Simple allowed) (Explains depth (('"' : CodePoint) :: t))
      ((stringRest t).map fun reading => (.string reading.1, reading.2)) := by
  refine (((stringRest_yields t).cons ('"' : CodePoint)).mono (fun _ _ written => written)
    fun _ => Explains.of_isFault).bind ?_
  rintro m _ rest cut ⟨_, rfl, body, rfl, spells⟩
  exact ⟨_, cut, .string spells⟩

/-- What is read for a value is a value that is nested no deeper than it may be. -/
theorem value_yields (wide : ∀ n : Numeral, ¬n.Long → allowed n) (depth : Nat) (t : Text) :
    Yields t (Writes allowed depth) (Explains depth t) (value depth t) := by
  induction depth generalizing t with
  | zero =>
    cases t with
    | nil => trivial
    | cons c rest =>
      rw [value_cons]
      split
      · rename_i quote
        subst quote
        exact stringRest_writes rest
      split
      · rename_i bracket
        subst bracket
        exact List.countP_pos_iff.mpr ⟨_, List.mem_cons_self, rfl⟩
      split
      · rename_i brace
        subst brace
        exact List.countP_pos_iff.mpr ⟨_, List.mem_cons_self, rfl⟩
      · exact scalar_yields wide 0 (c :: rest)
  | succ depth ih =>
    cases t with
    | nil => trivial
    | cons c rest =>
      rw [value_cons]
      split
      · rename_i quote
        subst quote
        exact (stringRest_writes rest).mono (fun _ _ => .inl) fun _ stop => stop
      split
      · rename_i bracket
        subst bracket
        exact (arrayRest_yields ih rest).opened rfl fun _ _ => .inr
      split
      · rename_i brace
        subst brace
        exact (objectRest_yields ih rest).opened rfl fun _ _ => .inr
      · exact (scalar_yields wide (depth + 1) (c :: rest)).mono (fun _ _ => .inl) fun _ stop => stop

end Renewal.Json
