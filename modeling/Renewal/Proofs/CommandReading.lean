import Renewal.Detect
import Renewal.Proofs.Phrase

/-! # How a heuristic reads a command

A match of a heuristic has four parts: what opens it, white space, the command and what closes it
(`Heuristic.Reading`). A reading that begins inside another one reads the same command, because all
that can open a reading within another is white space before its command
(`Heuristic.Reading.command_eq`). So a search that does not look twice at what it has taken loses no
command.
-/

namespace Renewal

namespace Heuristic

open Pattern

variable {h : Heuristic} {s e : Spot} {w : Text}

/-- What names are made of. -/
def letters : CharClass := ⟨[.range 'a' 'z', .one '_'], false⟩

/-- The names of commands, as the heuristics know them. -/
def IsName (w : Text) : Prop :=
  ∃ rest, IsRun letters rest ∧ w = ("ns" : Text) ++ rest

/-- A command and a subcommand. -/
def IsCall (m : Text) : Prop :=
  ∃ w gap w', IsName w ∧ IsRun ⟨[.one ' '], false⟩ gap ∧ IsRun letters w' ∧ m = w ++ (gap ++ w')

theorem spells_letters : nameLetter.atLeastOnce.Spells (IsRun letters) :=
  spells_atLeastOnce

theorem spells_commandName : commandName.Spells IsName := by
  intro s t
  refine (spells_exactly.sequence spells_letters s t).trans ?_
  simp only [IsName, exists_and_left, exists_eq_left]

theorem spells_call :
    (Pattern.all [commandName, (Pattern.one ' ').atLeastOnce, nameLetter.atLeastOnce]).Spells
      IsCall := by
  have spaces : (Pattern.one ' ').atLeastOnce.Spells (IsRun ⟨[.one ' '], false⟩) :=
    spells_atLeastOnce
  intro s t
  refine (spells_commandName.sequence (spaces.sequence spells_letters) s t).trans ?_
  constructor
  · rintro ⟨_, ⟨w, _, isName, ⟨gap, w', isGap, isWord, rfl⟩, rfl⟩, onward⟩
    exact ⟨_, ⟨w, gap, w', isName, isGap, isWord, rfl⟩, onward⟩
  · rintro ⟨_, ⟨w, gap, w', isName, isGap, isWord, rfl⟩, onward⟩
    exact ⟨_, ⟨w, _, isName, ⟨gap, w', isGap, isWord, rfl⟩, rfl⟩, onward⟩

theorem code_of_letters {c : CodePoint} (inside : letters.contains c = true) :
    97 ≤ c.code ∧ c.code ≤ 122 ∨ c = ('_' : CodePoint) := by
  simp only [CharClass.contains, letters, List.any_cons, List.any_nil, ClassItem.contains,
    Bool.or_false, Bool.bne_false, Bool.or_eq_true, Bool.and_eq_true, decide_eq_true_eq,
    beq_iff_eq] at inside
  exact inside

theorem isWord_of_letters {c : CodePoint} (inside : letters.contains c = true) :
    c.isWord = true := by
  rcases code_of_letters inside with ⟨low, high⟩ | rfl
  · have letter : c.isAsciiLetter = true := by
      simp only [CodePoint.isAsciiLetter, CodePoint.between, Bool.or_eq_true, Bool.and_eq_true,
        decide_eq_true_eq]
      exact .inl ⟨low, high⟩
    rw [CodePoint.isWord, if_pos (by omega), letter]
    rfl
  · decide

theorem IsName.isRun (isName : IsName w) : IsRun letters w := by
  obtain ⟨rest, ⟨-, inside⟩, rfl⟩ := isName
  refine ⟨by simp [show Text.ofString "ns" ≠ [] by decide], fun c member => ?_⟩
  have start : ∀ c ∈ ("ns" : Text), letters.contains c = true := by decide
  rcases List.mem_append.mp member with member | member
  · exact start c member
  · exact inside c member

theorem not_isBlank_of_letters (run : IsRun letters w) : ∀ c ∈ w, c.isBlank = false :=
  fun c member => CodePoint.isBlank_of_isWord (isWord_of_letters (run.inside c member))

theorem isBlank_of_spaces {gap : Text} (run : IsRun ⟨[.one ' '], false⟩ gap) :
    ∀ c ∈ gap, c.isBlank = true := by
  intro c member
  rw [contains_one.mp (run.inside c member)]
  decide

/-- What opens a reading; at the start of a text it may be nothing. -/
def Opens (before : Option CodePoint) (opening : Text) : Heuristic → Prop
  | .bracketed => opening = ("[" : Text)
  | .argument | .subcommand =>
    opening = [] ∧ before = none ∨ opening = ("\n" : Text) ∨ opening = ("[" : Text)

theorem Opens.cases {before : Option CodePoint} {o : Text} (opens : h.Opens before o) :
    o = [] ∧ before = none ∨ o = ("\n" : Text) ∨ o = ("[" : Text) := by
  cases h with
  | bracketed => exact .inr (.inr opens)
  | argument | subcommand => exact opens

/-- What a heuristic takes for a command. -/
def IsCommand (command : Text) : Heuristic → Prop
  | .bracketed | .argument => IsName command
  | .subcommand => IsCall command

/-- What closes a reading, and what has to come after it. -/
def Closes (closing rest : Text) : Heuristic → Prop
  | .bracketed => ∃ b, (∀ c ∈ b, c.isBlank = true) ∧ closing = b ++ ("]" : Text)
  | .argument => closing = [] ∧ ∃ b c x, (∀ c ∈ b, c.isBlank = true) ∧
      c ∈ [('-' : CodePoint), '$', '[', '"'] ∧ rest = b ++ c :: x
  | .subcommand => closing = [] ∧ rest.beginsWord = false

/-- A match of a heuristic in parts. -/
structure Reading where
  opening : Text
  blanks : Text
  command : Text
  closing : Text

namespace Reading

/-- A reading as it is written. -/
def text (r : Reading) : Text :=
  r.opening ++ (r.blanks ++ (r.command ++ r.closing))

/-- The parts of a reading are what the heuristic looks for. -/
structure Valid (r : Reading) (h : Heuristic) (before : Option CodePoint) (rest : Text) :
    Prop where
  opens : h.Opens before r.opening
  blank : ∀ c ∈ r.blanks, c.isBlank = true
  isCommand : h.IsCommand r.command
  closes : h.Closes r.closing rest

/-- The place after a reading, with the command remembered. -/
def after (r : Reading) (s : Spot) : Spot :=
  { s.advanceBy r.text with groups := (1, r.command) :: s.groups }

end Reading

/-- The pattern for what opens a reading. -/
def opener : Heuristic → Pattern
  | .bracketed => .one '['
  | .argument | .subcommand => .either (.edge .textStart) (.oneOf [.one '\n', .one '['])

/-- The pattern for a command. -/
def body : Heuristic → Pattern
  | .bracketed | .argument => commandName
  | .subcommand => .all [commandName, (Pattern.one ' ').atLeastOnce, nameLetter.atLeastOnce]

/-- The pattern for what closes a reading. -/
def closer : Heuristic → Pattern
  | .bracketed => .sequence .blanks (.one ']')
  | .argument => .ahead (.sequence .blanks (.oneOf [.one '-', .one '$', .one '[', .one '"']))
  | .subcommand => .edge .word

theorem ways_parts : h.pattern.Ways s e ↔ ∃ t u v, h.opener.Ways s t ∧ blanks.Ways t u ∧
    (group 1 h.body).Ways u v ∧ h.closer.Ways v e := by
  cases h with
  | bracketed =>
    constructor
    · rintro ⟨t, opened, u, spaced, v, named, closed⟩
      exact ⟨t, u, v, opened, spaced, named, closed⟩
    · rintro ⟨t, u, v, opened, spaced, named, closed⟩
      exact ⟨t, opened, u, spaced, v, named, closed⟩
  | argument | subcommand =>
    constructor
    · rintro ⟨u, ⟨t, opened, spaced⟩, v, named, closed⟩
      exact ⟨t, u, v, opened, spaced, named, closed⟩
    · rintro ⟨t, u, v, opened, spaced, named, closed⟩
      exact ⟨u, ⟨t, opened, spaced⟩, v, named, closed⟩

theorem ways_opener : h.opener.Ways s e ↔
    ∃ o, h.Opens s.before o ∧ o <+: s.rest ∧ e = s.advanceBy o := by
  have one : ∀ c : CodePoint, (∃ rest, s.rest = c :: rest ∧ e = s.advance c rest) ↔
      [c] <+: s.rest ∧ e = s.advanceBy [c] :=
    fun c => ways_one.symm.trans (ways_exactly (w := [c]))
  have line : (either (.edge .textStart) (.oneOf [.one '\n', .one '['])).Ways s e ↔
      ∃ o : Text, (o = [] ∧ s.before = none ∨ o = ("\n" : Text) ∨ o = ("[" : Text)) ∧
        o <+: s.rest ∧ e = s.advanceBy o := by
    have start : s.advanceBy [] = s := by simp [Spot.advanceBy]
    simp only [Ways, oneOf, Edge.holds, Option.isNone_iff_eq_none, CharClass.contains,
      ClassItem.contains, List.any_cons, List.any_nil, Bool.or_false, Bool.bne_false,
      Bool.or_eq_true, beq_iff_eq]
    constructor
    · rintro (⟨first, rfl⟩ | ⟨c, rest, here, rfl | rfl, same⟩)
      · exact ⟨[], .inl ⟨rfl, first⟩, List.nil_prefix, start.symm⟩
      · exact ⟨_, .inr (.inl rfl), (one _).mp ⟨rest, here, same⟩⟩
      · exact ⟨_, .inr (.inr rfl), (one _).mp ⟨rest, here, same⟩⟩
    · rintro ⟨o, ⟨rfl, first⟩ | rfl | rfl, here⟩
      · exact .inl ⟨first, here.2.trans start⟩
      · obtain ⟨rest, here, same⟩ := (one _).mpr here
        exact .inr ⟨_, rest, here, .inl rfl, same⟩
      · obtain ⟨rest, here, same⟩ := (one _).mpr here
        exact .inr ⟨_, rest, here, .inr rfl, same⟩
  cases h with
  | bracketed =>
    refine (ways_exactly (w := "[")).trans ?_
    simp only [Opens, exists_eq_left]
  | argument | subcommand => exact line

theorem spells_body : h.body.Spells fun m => h.IsCommand m := by
  cases h with
  | bracketed | argument => exact spells_commandName
  | subcommand => exact spells_call

theorem ways_closer (word : s.afterWord = true) : h.closer.Ways s e ↔
    ∃ k, h.Closes k (s.rest.drop k.length) ∧ k <+: s.rest ∧ e = s.advanceBy k := by
  have still : s.advanceBy [] = s := by simp [Spot.advanceBy]
  cases h with
  | bracketed =>
    have spaced : Spells .blanks fun m : Text => ∀ c ∈ m, c.isBlank = true := by
      intro s t
      simp only [ways_blanks, and_left_comm]
    refine (spaced.sequence (spells_exactly (w := "]")) s e).trans ?_
    simp only [Closes, exists_and_left, exists_eq_left]
  | argument =>
    constructor
    · -- What lies ahead is only looked at, and nothing of it is remembered.
      rintro ⟨l, seen, rfl⟩
      obtain ⟨_, ⟨_, onward, c, x, next, inside, rfl⟩, same⟩ := run_sound seen
      obtain ⟨b, there, blank, rfl⟩ := ways_blanks.mp onward
      obtain rfl := Option.some.inj same
      refine ⟨[], ⟨rfl, b, c, x, blank, ?_, ?_⟩, List.nil_prefix, still.symm⟩
      · simpa [CharClass.contains, ClassItem.contains] using inside
      · have cut := (Spot.takes_advanceBy there).rest
        rwa [next] at cut
    · rintro ⟨_, ⟨rfl, b, c, x, blank, inside, cut⟩, -, rfl⟩
      have cut : s.rest = b ++ c :: x := cut
      have onward : blanks.Ways s (s.advanceBy b) :=
        ways_blanks.mpr ⟨b, ⟨_, cut.symm⟩, blank, rfl⟩
      have next : (s.advanceBy b).rest = c :: x := by
        rw [Spot.advanceBy, cut, List.drop_left]
      have looks : (sequence blanks (.oneOf [.one '-', .one '$', .one '[', .one '"'])).Ways s
          ((s.advanceBy b).advance c x) := by
        refine ⟨_, onward, c, x, next, ?_, rfl⟩
        simpa [CharClass.contains, ClassItem.contains] using inside
      have accepted : (some ((s.advanceBy b).advance c x)).isSome = true := rfl
      obtain ⟨l, seen⟩ := Option.isSome_iff_exists.mp (run_complete looks accepted)
      refine ⟨l, seen, ?_⟩
      obtain ⟨_, ⟨_, onward, _, _, _, _, rfl⟩, same⟩ := run_sound seen
      obtain ⟨b', -, -, rfl⟩ := ways_blanks.mp onward
      obtain rfl := Option.some.inj same
      exact still
  | subcommand =>
    have stops : Edge.holds s .word = true ↔ Text.beginsWord s.rest = false := by
      simp [Edge.holds, word, Spot.beforeWord, Text.beginsWord]
    constructor
    · rintro ⟨ends, rfl⟩
      exact ⟨[], ⟨rfl, stops.mp ends⟩, List.nil_prefix, still.symm⟩
    · rintro ⟨_, ⟨rfl, ends⟩, -, rfl⟩
      exact ⟨stops.mpr ends, still⟩

theorem IsName.beginsWord (isName : IsName w) (x : Text) : Text.beginsWord (w ++ x) = true := by
  obtain ⟨rest, -, rfl⟩ := isName
  rfl

theorem IsCommand.beginsWord (isCommand : h.IsCommand w) (x : Text) :
    Text.beginsWord (w ++ x) = true := by
  cases h with
  | bracketed | argument => exact IsName.beginsWord isCommand x
  | subcommand =>
    obtain ⟨w, gap, w', isName, -, -, rfl⟩ := isCommand
    rw [List.append_assoc]
    exact isName.beginsWord _

theorem IsCommand.getLast? (isCommand : h.IsCommand w) :
    ∃ c, w.getLast? = some c ∧ c.isWord = true := by
  have last : ∀ (u : Text) {w}, IsRun letters w → ∃ c, (u ++ w).getLast? = some c ∧
      c.isWord = true := by
    intro u w run
    refine ⟨w.getLast run.written, ?_, isWord_of_letters (run.inside _ (List.getLast_mem _))⟩
    simp [List.getLast?_append, List.getLast?_eq_some_getLast run.written]
  cases h with
  | bracketed | argument => exact last [] (IsName.isRun isCommand)
  | subcommand =>
    obtain ⟨w, gap, w', -, -, run, rfl⟩ := isCommand
    rw [← List.append_assoc]
    exact last _ run

namespace Reading

variable {r r' : Reading} {before before' : Option CodePoint} {x x' d : Text}

theorem after_eq (opening blanks command closing : Text) (s : Spot) :
    { ((s.advanceBy opening).advanceBy blanks).advanceBy command with
        groups := (1, command) :: s.groups }.advanceBy closing =
      after ⟨opening, blanks, command, closing⟩ s := by
  simp [after, text, Spot.advanceBy, List.getLast?_append, Option.or_assoc, Nat.add_assoc]

/-- The pattern of a heuristic leads past its readings. -/
theorem ways_pattern : h.pattern.Ways s e ↔ ∃ r : Reading,
    r.Valid h s.before (s.rest.drop r.text.length) ∧ r.text <+: s.rest ∧ e = r.after s := by
  have ends : ∀ {opening blanks command : Text}, h.IsCommand command → Spot.afterWord
      { ((s.advanceBy opening).advanceBy blanks).advanceBy command with
        groups := (1, command) :: s.groups } = true := by
    intro opening blanks command isCommand
    obtain ⟨c, last, word⟩ := isCommand.getLast?
    simp [Spot.afterWord, Spot.advanceBy, last, word]
  simp only [ways_parts, ways_opener, ways_blanks, spells_body.ways_group]
  constructor
  · rintro ⟨_, _, _, ⟨opening, opens, here, rfl⟩, ⟨blanks, spaced, blank, rfl⟩,
      ⟨command, isCommand, named, rfl⟩, closed⟩
    obtain ⟨closing, closes, last, rfl⟩ := (ways_closer (ends isCommand)).mp closed
    refine ⟨⟨opening, blanks, command, closing⟩, ⟨opens, blank, isCommand, ?_⟩, ?_,
      after_eq opening blanks command closing s⟩
    · simpa [text, Spot.advanceBy, List.drop_drop, Nat.add_assoc] using closes
    · exact Text.append_prefix_iff.mpr ⟨here, Text.append_prefix_iff.mpr ⟨spaced,
        Text.append_prefix_iff.mpr ⟨named, last⟩⟩⟩
  · rintro ⟨⟨opening, blanks, command, closing⟩, ⟨opens, blank, isCommand, closes⟩, whole, rfl⟩
    obtain ⟨here, others⟩ := Text.append_prefix_iff.mp whole
    obtain ⟨spaced, others⟩ := Text.append_prefix_iff.mp others
    obtain ⟨named, last⟩ := Text.append_prefix_iff.mp others
    refine ⟨_, _, _, ⟨opening, opens, here, rfl⟩, ⟨blanks, spaced, blank, rfl⟩,
      ⟨command, isCommand, named, rfl⟩, ?_⟩
    refine (ways_closer (ends isCommand)).mpr ⟨closing, ?_, last,
      (after_eq opening blanks command closing s).symm⟩
    simpa [text, Spot.advanceBy, List.drop_drop, Nat.add_assoc] using closes

/-- What follows a command does not go on with a word. -/
theorem Valid.stops (valid : r.Valid h before x) : Text.beginsWord (r.closing ++ x) = false := by
  have spaced : ∀ {b : Text} {c : CodePoint} {y : Text}, (∀ c ∈ b, c.isBlank = true) →
      c.isWord = false → Text.beginsWord (b ++ c :: y) = false := by
    intro b c y blank other
    cases b with
    | nil => exact other
    | cons d b => exact Text.beginsWord_of_isBlank (blank d List.mem_cons_self)
  cases h with
  | bracketed =>
    obtain ⟨b, blank, closing⟩ := valid.closes
    rw [closing, List.append_assoc]
    exact spaced blank (by decide)
  | argument =>
    obtain ⟨closing, b, c, y, blank, next, rfl⟩ := valid.closes
    have ends : ∀ c ∈ [('-' : CodePoint), '$', '[', '"'], c.isWord = false := by decide
    rw [closing]
    exact spaced blank (ends c next)
  | subcommand =>
    obtain ⟨closing, stop⟩ := valid.closes
    rwa [closing]

/-- A text without a bracket and white space at its start. -/
def skipLead (t : Text) : Text :=
  (if t.head? = some ('[' : CodePoint) then t.tail else t).dropWhile CodePoint.isBlank

theorem dropWhile_blank {a t : Text} (blank : ∀ c ∈ a, c.isBlank = true)
    (word : t.beginsWord = true) : (a ++ t).dropWhile CodePoint.isBlank = t := by
  rw [List.dropWhile_append_of_pos blank]
  cases t with
  | nil => cases word
  | cons c t => exact List.dropWhile_cons_of_neg (by simp [CodePoint.isBlank_of_isWord word])

theorem skipLead_blank {a t : Text} (blank : ∀ c ∈ a, c.isBlank = true)
    (word : t.beginsWord = true) : skipLead (a ++ t) = t := by
  have other : (a ++ t).head? ≠ some ('[' : CodePoint) := by
    intro bracket
    cases a with
    | nil =>
      rw [Text.beginsWord, show t.head? = _ from bracket] at word
      revert word
      decide
    | cons c a =>
      obtain rfl := Option.some.inj bracket
      exact absurd (blank _ List.mem_cons_self) (by decide)
  rw [skipLead, if_neg other, dropWhile_blank blank word]

/-- The command of a reading comes after a bracket or none, and white space. -/
theorem Valid.skipLead_text (valid : r.Valid h before x) :
    skipLead (r.text ++ x) = r.command ++ (r.closing ++ x) := by
  have word := IsCommand.beginsWord valid.isCommand (r.closing ++ x)
  have parts : r.text ++ x = r.opening ++ (r.blanks ++ (r.command ++ (r.closing ++ x))) := by
    simp [text]
  rw [parts]
  rcases Opens.cases valid.opens with ⟨opening, -⟩ | opening | opening
  · rw [opening]
    exact skipLead_blank valid.blank word
  · rw [opening, ← List.append_assoc]
    apply skipLead_blank _ word
    exact List.forall_mem_cons.mpr ⟨by decide, valid.blank⟩
  · rw [opening]
    exact dropWhile_blank valid.blank word

/-- At most one command can be read at a place. -/
theorem command_unique {m m' z z' : Text} (isCommand : h.IsCommand m)
    (isCommand' : h.IsCommand m') (stop : z.beginsWord = false) (stop' : z'.beginsWord = false)
    (same : m ++ z = m' ++ z') : m = m' := by
  have words : ∀ {w : Text}, IsRun letters w → ∀ c ∈ w, c.isWord = true :=
    fun run c member => isWord_of_letters (run.inside c member)
  have gapStops : ∀ {gap : Text} (y : Text), IsRun ⟨[.one ' '], false⟩ gap →
      Text.beginsWord (gap ++ y) = false := by
    intro gap y run
    obtain ⟨c, gap, rfl⟩ := List.exists_cons_of_ne_nil run.written
    exact Text.beginsWord_of_isBlank (isBlank_of_spaces run c List.mem_cons_self)
  have wordStops : ∀ {w : Text} (y : Text), IsRun letters w →
      (w ++ y).head?.any CodePoint.isBlank = false := by
    intro w y run
    obtain ⟨c, w, rfl⟩ := List.exists_cons_of_ne_nil run.written
    exact not_isBlank_of_letters run c List.mem_cons_self
  cases h with
  | bracketed | argument =>
    exact (Text.run_unique same (words (IsName.isRun isCommand))
      (words (IsName.isRun isCommand')) stop stop').1
  | subcommand =>
    obtain ⟨w, gap, w₂, isName, isGap, isWord, rfl⟩ := isCommand
    obtain ⟨w', gap', w₂', isName', isGap', isWord', rfl⟩ := isCommand'
    simp only [List.append_assoc] at same
    obtain ⟨first, later⟩ := Text.run_unique same (words isName.isRun) (words isName'.isRun)
      (gapStops _ isGap) (gapStops _ isGap')
    obtain ⟨between, last⟩ := Text.run_unique later (isBlank_of_spaces isGap)
      (isBlank_of_spaces isGap') (wordStops _ isWord) (wordStops _ isWord')
    obtain ⟨second, -⟩ := Text.run_unique last (words isWord) (words isWord') stop stop'
    rw [first, between, second]

/-- Nothing that opens a reading stands in the command or in what closes it. -/
theorem Valid.opening_not_mem {c : CodePoint} (valid : r.Valid h before x)
    (opens : h.Opens before' [c]) : c ∉ r.command ++ r.closing := by
  have opener : c = ('\n' : CodePoint) ∨ c = ('[' : CodePoint) := by
    rcases Opens.cases opens with ⟨nothing, -⟩ | same | same
    · cases nothing
    · exact .inl (List.cons.inj same).1
    · exact .inr (List.cons.inj same).1
  have outside : ∀ {w : Text}, IsRun letters w → c ∉ w := by
    intro w run member
    have letter := run.inside c member
    rcases opener with rfl | rfl
    · revert letter
      decide
    · revert letter
      decide
  cases h with
  | bracketed =>
    obtain rfl : c = ('[' : CodePoint) := (List.cons.inj opens).1
    obtain ⟨b, blank, closing⟩ := valid.closes
    rw [closing, List.mem_append, List.mem_append]
    rintro (inName | inBlanks | inBracket)
    · exact outside (IsName.isRun valid.isCommand) inName
    · exact absurd (blank _ inBlanks) (by decide)
    · revert inBracket
      decide
  | argument =>
    rw [valid.closes.1, List.append_nil]
    exact outside (IsName.isRun valid.isCommand)
  | subcommand =>
    obtain ⟨w, gap, w', isName, isGap, isWord, command⟩ := valid.isCommand
    rw [valid.closes.1, List.append_nil, command, List.mem_append, List.mem_append]
    rintro (inFirst | inGap | inSecond)
    · exact outside isName.isRun inFirst
    · have space := contains_one.mp (isGap.inside c inGap)
      rw [space] at opener
      revert opener
      decide
    · exact outside isWord inSecond

/-- A reading that begins inside another one begins in the white space before its command. -/
theorem Valid.blank_of_inside {c : CodePoint} {rest : Text} (valid : r.Valid h before x)
    (opens : h.Opens before' [c]) (written : d ≠ []) (cut : r.text = d ++ c :: rest) :
    ∃ a, (∀ c ∈ a, c.isBlank = true) ∧ c :: rest = a ++ (r.command ++ r.closing) := by
  have absent := valid.opening_not_mem opens
  have parts : (r.opening ++ r.blanks) ++ (r.command ++ r.closing) = d ++ c :: rest := by
    rw [← cut, text, List.append_assoc]
  rcases List.append_eq_append_iff.mp parts with ⟨q, -, later⟩ | ⟨q, earlier, here⟩
  · refine absurd ?_ absent
    rw [later]
    exact List.mem_append_right _ List.mem_cons_self
  · refine ⟨q, ?_, here⟩
    -- What opens the reading is a single code point, so the other begins after it.
    have short : r.opening.length ≤ d.length := by
      have pos := List.length_pos_of_ne_nil written
      rcases Opens.cases valid.opens with ⟨opening, -⟩ | opening | opening
      · simp [opening]
      · rw [opening]
        exact pos
      · rw [opening]
        exact pos
    intro e member
    have suffix : q <:+ r.blanks := by
      have whole : r.blanks <:+ r.opening ++ r.blanks := List.suffix_append _ _
      have part : q <:+ r.opening ++ r.blanks := earlier ▸ List.suffix_append _ _
      apply List.suffix_of_suffix_length_le part whole
      have lengths := congrArg List.length earlier
      simp only [List.length_append] at lengths
      omega
    exact valid.blank e (suffix.subset member)

/-- A reading that begins where another one does, or inside it, reads the same command. -/
theorem command_eq (valid : r.Valid h before x) (valid' : r'.Valid h before' x')
    (same : r'.text ++ x' = d ++ (r.text ++ x))
    (inside : d = [] ∨ before ≠ none ∧ d.length < r'.text.length) : r'.command = r.command := by
  have lead : skipLead (r.text ++ x) = r'.command ++ (r'.closing ++ x') := by
    by_cases begins : d = []
    · rw [← valid'.skipLead_text, same, begins, List.nil_append]
    · obtain ⟨later, inside⟩ := inside.resolve_left begins
      obtain ⟨c, opening⟩ : ∃ c, r.opening = [c] := by
        rcases Opens.cases valid.opens with ⟨-, first⟩ | opening | opening
        · exact absurd first later
        · exact ⟨_, opening⟩
        · exact ⟨_, opening⟩
      obtain ⟨q, cut⟩ : d <+: r'.text :=
        List.prefix_of_prefix_length_le ⟨_, same.symm⟩ (List.prefix_append _ _)
          (Nat.le_of_lt inside)
      have rest : q ++ x' = r.text ++ x := by
        rw [← cut, List.append_assoc] at same
        exact List.append_cancel_left same
      obtain ⟨e, q, rfl⟩ : ∃ e q', q = e :: q' := by
        apply List.exists_cons_of_ne_nil
        rintro rfl
        rw [← cut, List.append_nil] at inside
        exact Nat.lt_irrefl _ inside
      obtain rfl : e = c := by
        rw [text, opening] at rest
        exact (List.cons.inj rest).1
      obtain ⟨a, blank, here⟩ := valid'.blank_of_inside (opening ▸ valid.opens) begins cut.symm
      rw [← rest, here, List.append_assoc, List.append_assoc]
      exact skipLead_blank blank (IsCommand.beginsWord valid'.isCommand _)
  refine command_unique valid'.isCommand valid.isCommand valid'.stops valid.stops ?_
  rw [← lead, valid.skipLead_text]

end Reading

end Heuristic

end Renewal
