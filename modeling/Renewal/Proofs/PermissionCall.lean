import Renewal.Proofs.Phrase

/-! # A call whose arguments are kept

A call that sets the permissions of a file is replaced together with its arguments: a name and a
mode, which the pattern remembers and the template writes again. Each part of a call ends where the
code points of the next one begin, so that a call can be read in one way only.
-/

namespace Renewal

/-- A call that sets permissions, in parts. -/
structure PermissionCall where
  gap : Text
  file : Text
  spaces : Text
  mode : Text

namespace PermissionCall

open Pattern

variable {call : PermissionCall} {t x : Text} {h : Hit} {s u : Spot} {k : Nat}

/-- The name of the command. -/
def name : Text := "ns_chmod"

/-- What the name of a file is made of. -/
def fileLetters : CharClass := ⟨[.range 'a' 'z', .range 'A' 'Z', .one '$', .one '"'], false⟩

/-- What a mode is made of. -/
def modeDigits : CharClass := ⟨[.range '0' '9'], false⟩

/-- The pattern for a call; the groups are its arguments. -/
def pattern : Pattern :=
  .all (name.map .one ++ [(item ⟨[.blank], false⟩).atLeastOnce,
    .group 1 (item fileLetters).atLeastOnce, (item ⟨[.one ' '], false⟩).atLeastOnce,
    .group 2 (item modeDigits).atLeastOnce, .edge .word])

/-- What takes the place of a call. -/
def template : Template :=
  ("file attributes " : Text).map (fun c => .literal [c]) ++ .group 1 ::
    (" -permissions " : Text).map (fun c => .literal [c]) ++ [.group 2]

/-- The parts of a call are not empty and made of the code points that the pattern allows. -/
structure Valid (call : PermissionCall) : Prop where
  gap : IsRun ⟨[.blank], false⟩ call.gap
  file : IsRun fileLetters call.file
  spaces : IsRun ⟨[.one ' '], false⟩ call.spaces
  mode : IsRun modeDigits call.mode

/-- A call as it is written. -/
def text (call : PermissionCall) : Text :=
  name ++ (call.gap ++ (call.file ++ (call.spaces ++ call.mode)))

/-- What a call becomes. -/
def output (call : PermissionCall) : Text :=
  "file attributes " ++ (call.file ++ (" -permissions " ++ call.mode))

/-- A call is taken at the start of a text. -/
def Takes (t : Text) (h : Hit) : Prop :=
  ∃ (call : PermissionCall) (x : Text), call.Valid ∧ t = call.text ++ x ∧ x.beginsWord = false ∧
    h = ⟨call.text, call.output⟩

theorem code_of_fileLetters {c : CodePoint} (inside : fileLetters.contains c = true) :
    97 ≤ c.code ∧ c.code ≤ 122 ∨ 65 ≤ c.code ∧ c.code ≤ 90 ∨ c.code = 36 ∨ c.code = 34 := by
  simp only [CharClass.contains, fileLetters, List.any_cons, List.any_nil, ClassItem.contains,
    Bool.or_false, Bool.bne_false, Bool.or_eq_true, Bool.and_eq_true, decide_eq_true_eq,
    beq_iff_eq] at inside
  rcases inside with lower | upper | rfl | rfl
  · exact .inl lower
  · exact .inr (.inl upper)
  · exact .inr (.inr (.inl rfl))
  · exact .inr (.inr (.inr rfl))

theorem code_of_modeDigits {c : CodePoint} (inside : modeDigits.contains c = true) :
    48 ≤ c.code ∧ c.code ≤ 57 := by
  simp only [CharClass.contains, modeDigits, List.any_cons, List.any_nil, ClassItem.contains,
    Bool.or_false, Bool.bne_false, Bool.and_eq_true, decide_eq_true_eq] at inside
  exact inside

theorem isWord_of_modeDigits {c : CodePoint} (inside : modeDigits.contains c = true) :
    c.isWord = true := by
  have codes := code_of_modeDigits inside
  have ascii : c.code < 0x80 := by omega
  have digit : c.isAsciiDigit = true := by
    simp only [CodePoint.isAsciiDigit, CodePoint.between, Bool.and_eq_true, decide_eq_true_eq]
    exact codes
  rw [CodePoint.isWord, if_pos ascii, digit]
  simp

theorem isBlank_of_fileLetters {c : CodePoint} (inside : fileLetters.contains c = true) :
    c.isBlank = false := by
  have codes := code_of_fileLetters inside
  simp only [CodePoint.isBlank, Bool.or_eq_false_iff, Bool.and_eq_false_iff,
    decide_eq_false_iff_not, beq_eq_false_iff_ne]
  omega

theorem fileLetters_of_space {c : CodePoint}
    (inside : CharClass.contains ⟨[.one ' '], false⟩ c = true) :
    fileLetters.contains c = false := by
  rw [contains_one.mp inside]
  decide

theorem space_of_fileLetters {c : CodePoint} (inside : fileLetters.contains c = true) :
    CharClass.contains ⟨[.one ' '], false⟩ c = false := by
  by_contra space
  rw [fileLetters_of_space (eq_true_of_ne_false space)] at inside
  cases inside

theorem space_of_modeDigits {c : CodePoint} (inside : modeDigits.contains c = true) :
    CharClass.contains ⟨[.one ' '], false⟩ c = false := by
  by_contra space
  rw [contains_one.mp (eq_true_of_ne_false space)] at inside
  revert inside
  decide

theorem modeDigits_of_fileLetters {c : CodePoint} (inside : fileLetters.contains c = true) :
    modeDigits.contains c = false := by
  by_contra digit
  have digits := code_of_modeDigits (eq_true_of_ne_false digit)
  have letters := code_of_fileLetters inside
  omega

/-- A mode ends a word where no word character follows. -/
theorem getLast?_text (valid : call.Valid) :
    ∃ c, call.text.getLast? = some c ∧ modeDigits.contains c = true := by
  obtain ⟨written, inside⟩ := valid.mode
  refine ⟨call.mode.getLast written, ?_, inside _ (List.getLast_mem written)⟩
  simp [text, List.getLast?_append, List.getLast?_eq_some_getLast written]

/-- The place after a call, with the arguments remembered. -/
def after (call : PermissionCall) (s : Spot) : Spot :=
  { s.advanceBy call.text with groups := (2, call.mode) :: (1, call.file) :: s.groups }

theorem holds_word_after (valid : call.Valid) (s : Spot) :
    Edge.holds (call.after s) .word = !Text.beginsWord (s.rest.drop call.text.length) := by
  obtain ⟨c, last, digit⟩ := getLast?_text valid
  exact Spot.holds_word_advanceBy last (isWord_of_modeDigits digit)

theorem advanceBy_parts (gap file spaces mode : Text) (s : Spot) :
    { ({ ((s.advanceBy name).advanceBy gap).advanceBy file with
          groups := (1, file) :: s.groups }.advanceBy spaces).advanceBy mode with
      groups := (2, mode) :: (1, file) :: s.groups } = after ⟨gap, file, spaces, mode⟩ s := by
  simp [after, text, Spot.advanceBy, List.getLast?_append, Option.or_assoc, Nat.add_assoc]

theorem ways_pattern : pattern.Ways s u ↔ ∃ call : PermissionCall, call.Valid ∧
    call.text <+: s.rest ∧ Text.beginsWord (s.rest.drop call.text.length) = false ∧
    u = call.after s := by
  have exact : ∀ {s u : Spot}, (Pattern.all (name.map .one)).Ways s u ↔
      name <+: s.rest ∧ u = s.advanceBy name := Pattern.ways_exactly
  simp only [pattern, ways_all_append, exact, ways_all_cons, ways_atLeastOnce,
    spells_atLeastOnce.ways_group]
  constructor
  · rintro ⟨_, ⟨named, rfl⟩, _, ⟨gap, gapRun, spaced, rfl⟩, _, ⟨file, fileRun, first, rfl⟩,
      _, ⟨spaces, spacesRun, apart, rfl⟩, _, ⟨mode, modeRun, second, rfl⟩, _, ⟨ends, rfl⟩, rfl⟩
    have valid : Valid ⟨gap, file, spaces, mode⟩ := ⟨gapRun, fileRun, spacesRun, modeRun⟩
    have along := advanceBy_parts gap file spaces mode s
    refine ⟨⟨gap, file, spaces, mode⟩, valid, ?_, ?_, along⟩
    · exact Text.append_prefix_iff.mpr ⟨named, Text.append_prefix_iff.mpr ⟨spaced,
        Text.append_prefix_iff.mpr ⟨first, Text.append_prefix_iff.mpr ⟨apart, second⟩⟩⟩⟩
    · have stop := holds_word_after valid s
      rw [← along] at stop
      simpa using stop.symm.trans ends
  · rintro ⟨call, valid, here, stop, rfl⟩
    obtain ⟨named, others⟩ := Text.append_prefix_iff.mp here
    obtain ⟨spaced, others⟩ := Text.append_prefix_iff.mp others
    obtain ⟨first, others⟩ := Text.append_prefix_iff.mp others
    obtain ⟨apart, second⟩ := Text.append_prefix_iff.mp others
    have along := advanceBy_parts call.gap call.file call.spaces call.mode s
    have ends : Edge.holds (call.after s) .word = true := by
      rw [holds_word_after valid, stop]
      rfl
    exact ⟨_, ⟨named, rfl⟩, _, ⟨_, valid.gap, spaced, rfl⟩, _, ⟨_, valid.file, first, rfl⟩,
      _, ⟨_, valid.spaces, apart, rfl⟩, call.after s, ⟨_, valid.mode, second, along.symm⟩,
      _, ⟨ends, rfl⟩, rfl⟩

theorem head?_append_run {set : CharClass} {m : Text} {f : CodePoint → Bool} (run : IsRun set m)
    (apart : ∀ c, set.contains c = true → f c = false) (x : Text) :
    (m ++ x).head?.any f = false := by
  obtain ⟨c, m, rfl⟩ := List.exists_cons_of_ne_nil run.written
  exact apart c (run.inside c List.mem_cons_self)

theorem not_modeDigits_head? (stop : x.beginsWord = false) :
    x.head?.any modeDigits.contains = false := by
  cases x with
  | nil => rfl
  | cons c x =>
    by_contra digit
    have word : c.isWord = true := isWord_of_modeDigits (by simpa using digit)
    rw [show Text.beginsWord (c :: x) = c.isWord from rfl, word] at stop
    cases stop

/-- Each part of a call ends where the next one begins. -/
theorem text_unique {call' : PermissionCall} {x' : Text} (valid : call.Valid)
    (valid' : call'.Valid) (stop : x.beginsWord = false) (stop' : x'.beginsWord = false)
    (same : call.text ++ x = call'.text ++ x') : call = call' := by
  simp only [text, List.append_assoc] at same
  have same := List.append_cancel_left same
  have blank : ∀ c, CharClass.contains ⟨[.blank], false⟩ c = true → c.isBlank = true :=
    fun c inside => contains_blank ▸ inside
  obtain ⟨gap, same⟩ := Text.run_unique same (fun c member => blank c (valid.gap.inside c member))
    (fun c member => blank c (valid'.gap.inside c member))
    (head?_append_run valid.file (fun _ => isBlank_of_fileLetters) _)
    (head?_append_run valid'.file (fun _ => isBlank_of_fileLetters) _)
  obtain ⟨file, same⟩ := Text.run_unique same valid.file.inside valid'.file.inside
    (head?_append_run valid.spaces (fun _ => fileLetters_of_space) _)
    (head?_append_run valid'.spaces (fun _ => fileLetters_of_space) _)
  obtain ⟨spaces, same⟩ := Text.run_unique same valid.spaces.inside valid'.spaces.inside
    (head?_append_run valid.mode (fun _ => space_of_modeDigits) _)
    (head?_append_run valid'.mode (fun _ => space_of_modeDigits) _)
  obtain ⟨mode, -⟩ := Text.run_unique same valid.mode.inside valid'.mode.inside
    (not_modeDigits_head? stop) (not_modeDigits_head? stop')
  cases call
  cases call'
  simp_all only

theorem reads : pattern.Reads fun t m => ∃ (call : PermissionCall) (x : Text), call.Valid ∧
    t = call.text ++ x ∧ x.beginsWord = false ∧
      m = ⟨call.text, [(2, call.mode), (1, call.file)]⟩ where
  sound := by
    intro before t u leads
    obtain ⟨call, valid, ⟨x, here⟩, stop, rfl⟩ := ways_pattern.mp leads
    have here : t = call.text ++ x := here.symm
    refine ⟨call, x, valid, here, ?_, ?_⟩
    · rwa [here, List.drop_left] at stop
    · simp [Pattern.matchTo, after, Spot.advanceBy, here]
  complete := by
    rintro _ _ before ⟨call, x, valid, rfl, stop, rfl⟩
    exact ⟨_, ways_pattern.mpr
      ⟨call, valid, List.prefix_append _ _, by simpa using stop, rfl⟩⟩
  unique := by
    rintro _ _ _ ⟨call, x, valid, rfl, stop, rfl⟩ ⟨call', x', valid', same, stop', rfl⟩
    rw [text_unique valid valid' stop stop' same]
  proper := by
    rintro _ _ ⟨call, x, -, -, -, rfl⟩ nothing
    have named : name = [] := (List.append_eq_nil_iff.mp nothing).1
    revert named
    decide

theorem expand_template (text mode file : Text) :
    template.expand ⟨text, [(2, mode), (1, file)]⟩ =
      "file attributes " ++ (file ++ (" -permissions " ++ mode)) := by
  have literal : ∀ (m : Match) (t : Text),
      (t.map fun c => Template.Part.literal [c]).flatMap (Template.Part.expand m) = t := by
    intro m t
    rw [List.flatMap_map]
    exact List.flatMap_singleton' t
  rw [Template.expand, template]
  simp [List.flatMap_append, literal, Template.Part.expand, Match.group?, List.lookup_cons]

/-- The rule for permissions takes calls. -/
theorem hit?_eq_some_iff : pattern.hit? template.expand t = some h ↔ Takes t h := by
  rw [reads.hit?_eq_some_iff]
  constructor
  · rintro ⟨_, ⟨call, x, valid, cut, stop, rfl⟩, rfl⟩
    exact ⟨call, x, valid, cut, stop, by rw [expand_template, output]⟩
  · rintro ⟨call, x, valid, cut, stop, rfl⟩
    exact ⟨_, ⟨call, x, valid, cut, stop, rfl⟩, by rw [expand_template, output]⟩

theorem Takes.nearby {y : Text} (takes : Takes (h.taken ++ x) h)
    (same : x.beginsWord = y.beginsWord) : Takes (h.taken ++ y) h := by
  obtain ⟨call, x', valid, cut, stop, rfl⟩ := takes
  have rest := List.append_cancel_left cut
  refine ⟨call, y, valid, rfl, ?_, rfl⟩
  rw [← same, rest, stop]

/-- Where a call is taken, its name stands as a word. -/
theorem Takes.named (takes : Takes t h) (output : Text) :
    Phrase.Takes ⟨name, [], true, output⟩ t ⟨name, output⟩ := by
  obtain ⟨call, x, valid, rfl, -, -⟩ := takes
  refine ⟨[], call.gap ++ (call.file ++ (call.spaces ++ call.mode)) ++ x, ?_, ?_, ?_, ?_⟩
  · simp [text, Phrase.withGap]
  · exact ⟨by simp, by simp⟩
  · intro _
    obtain ⟨c, gap, begins⟩ := List.exists_cons_of_ne_nil valid.gap.written
    have blank := valid.gap.inside c (by rw [begins]; exact List.mem_cons_self)
    rw [contains_blank] at blank
    rw [begins]
    exact Text.beginsWord_of_isBlank blank
  · simp [Phrase.withGap]

/-- A name has an underscore early on, so none begins where a digit ends a text without one. -/
theorem not_starts_drop {w y : Text} {c : CodePoint} (last : w.getLast? = some c)
    (digit : modeDigits.contains c = true) (absent : ('_' : CodePoint) ∉ w.drop (k + 2))
    (within : k < w.length) : ¬[('n' : CodePoint), 's', '_'] <+: (w ++ y).drop k := by
  intro start
  rw [List.drop_append_of_le_length (Nat.le_of_lt within)] at start
  have ends : (w.drop k).getLast? = some c := by
    rw [← List.take_append_drop k w, List.getLast?_append] at last
    cases left : w.drop k with
    | nil => exact absurd (List.drop_eq_nil_iff.mp left) (Nat.not_le.mpr within)
    | cons d rest => simpa [left] using last
  rw [← List.drop_drop] at absent
  rcases left : w.drop k with _ | ⟨d, _ | ⟨e, _ | ⟨f, rest⟩⟩⟩
  · rw [left] at ends
    cases ends
  · rw [left] at ends start
    obtain ⟨rfl, -⟩ := List.cons_prefix_cons.mp start
    obtain rfl := Option.some.inj ends
    revert digit
    decide
  · rw [left] at ends start
    obtain ⟨-, start⟩ := List.cons_prefix_cons.mp start
    obtain ⟨rfl, -⟩ := List.cons_prefix_cons.mp start
    obtain rfl : ('s' : CodePoint) = c := Option.some.inj ends
    revert digit
    decide
  · rw [left] at start absent
    obtain ⟨-, start⟩ := List.cons_prefix_cons.mp start
    obtain ⟨-, start⟩ := List.cons_prefix_cons.mp start
    obtain ⟨rfl, -⟩ := List.cons_prefix_cons.mp start
    exact absent List.mem_cons_self

theorem not_mem_of_run {set : CharClass} {m : Text} {c : CodePoint} (run : IsRun set m)
    (outside : set.contains c = false) : c ∉ m := by
  intro member
  rw [run.inside _ member] at outside
  cases outside

/-- No other name begins inside a call. -/
theorem Takes.not_starts (takes : Takes t h) (later : 0 < k) (within : k < h.taken.length) :
    ¬[('n' : CodePoint), 's', '_'] <+: t.drop k := by
  obtain ⟨call, x, valid, rfl, -, rfl⟩ := takes
  obtain ⟨c, last, digit⟩ := getLast?_text valid
  refine not_starts_drop last digit ?_ within
  -- The only underscore is that of the name of the command.
  have arguments : ('_' : CodePoint) ∉ call.text.drop 3 := by
    have parts : call.text.drop 3 =
        "chmod" ++ (call.gap ++ (call.file ++ (call.spaces ++ call.mode))) := rfl
    simp only [parts, List.mem_append, not_or]
    exact ⟨by decide, not_mem_of_run valid.gap (by decide),
      not_mem_of_run valid.file (by decide), not_mem_of_run valid.spaces (by decide),
      not_mem_of_run valid.mode (by decide)⟩
  intro member
  rw [show k + 2 = 3 + (k - 1) by omega, ← List.drop_drop] at member
  exact arguments (List.mem_of_mem_drop member)

/-- No name begins in what a call becomes. -/
theorem Takes.output_not_starts (takes : Takes t h) (within : k < h.output.length) (x : Text) :
    ¬[('n' : CodePoint), 's', '_'] <+: h.output.drop k ++ x := by
  obtain ⟨call, -, valid, -, -, rfl⟩ := takes
  have absent : ('_' : CodePoint) ∉ call.output := by
    simp only [output, List.mem_append, not_or]
    exact ⟨by decide, not_mem_of_run valid.file (by decide), by decide,
      not_mem_of_run valid.mode (by decide)⟩
  obtain ⟨written, inside⟩ := valid.mode
  have last : call.output.getLast? = some (call.mode.getLast written) := by
    simp [output, List.getLast?_append, List.getLast?_eq_some_getLast written]
  rw [← List.drop_append_of_le_length (Nat.le_of_lt within)]
  exact not_starts_drop last (inside _ (List.getLast_mem written))
    (fun member => absent (List.mem_of_mem_drop member)) within

theorem mem_of_drop_append {m y rest : Text} {c : CodePoint} (within : k < m.length)
    (here : (m ++ y).drop k = c :: rest) : c ∈ m := by
  rw [List.drop_append_of_le_length (Nat.le_of_lt within)] at here
  cases left : m.drop k with
  | nil => exact absurd (List.drop_eq_nil_iff.mp left) (Nat.not_le.mpr within)
  | cons d others =>
    rw [left] at here
    obtain rfl := (List.cons.inj here).1
    exact List.mem_of_mem_drop (left ▸ List.mem_cons_self)

/-- A letter in a call that its command does not have belongs to the name of the file. -/
theorem drop_text_of_letter {c : CodePoint} {rest : Text} (valid : call.Valid)
    (here : (call.text ++ x).drop k = c :: rest) (within : k < call.text.length)
    (letter : fileLetters.contains c = true) (foreign : c ∉ name) :
    ∃ file, (∀ d ∈ file, fileLetters.contains d = true) ∧
      c :: rest = file ++ (call.spaces ++ (call.mode ++ x)) := by
  simp only [text, List.append_assoc, List.length_append] at here within
  by_cases inName : k < name.length
  · exact absurd (mem_of_drop_append inName here) foreign
  rw [List.drop_append, List.drop_eq_nil_iff.mpr (Nat.le_of_not_lt inName), List.nil_append] at here
  by_cases inGap : k - name.length < call.gap.length
  · have blank := valid.gap.inside c (mem_of_drop_append inGap here)
    rw [contains_blank, isBlank_of_fileLetters letter] at blank
    cases blank
  rw [List.drop_append, List.drop_eq_nil_iff.mpr (Nat.le_of_not_lt inGap), List.nil_append] at here
  by_cases inFile : k - name.length - call.gap.length < call.file.length
  · refine ⟨call.file.drop (k - name.length - call.gap.length), ?_, ?_⟩
    · exact fun d member => valid.file.inside d (List.mem_of_mem_drop member)
    · rw [← here, List.drop_append_of_le_length (Nat.le_of_lt inFile)]
  rw [List.drop_append, List.drop_eq_nil_iff.mpr (Nat.le_of_not_lt inFile),
    List.nil_append] at here
  by_cases inSpaces : k - name.length - call.gap.length - call.file.length < call.spaces.length
  · have space := valid.spaces.inside c (mem_of_drop_append inSpaces here)
    rw [space_of_fileLetters letter] at space
    cases space
  rw [List.drop_append, List.drop_eq_nil_iff.mpr (Nat.le_of_not_lt inSpaces),
    List.nil_append] at here
  have digit := valid.mode.inside c (mem_of_drop_append (by omega) here)
  rw [modeDigits_of_fileLetters letter] at digit
  cases digit

/-- The name of a file in a call is followed by a mode, not by another word. -/
theorem Takes.not_file (takes : Takes t h) (within : k < h.taken.length) {c : CodePoint}
    (letter : fileLetters.contains c = true) : ¬("file " ++ [c] : Text) <+: t.drop k := by
  obtain ⟨call, x, valid, rfl, -, rfl⟩ := takes
  rintro ⟨y, here⟩
  obtain ⟨file, inside, same⟩ :=
    drop_text_of_letter valid here.symm within (by decide) (by decide)
  have same : ("file" : Text) ++ ((" " : Text) ++ c :: y) =
      file ++ (call.spaces ++ (call.mode ++ x)) := same
  obtain ⟨-, same⟩ := Text.run_unique same (by decide) inside rfl
    (head?_append_run valid.spaces (fun _ => fileLetters_of_space) _)
  obtain ⟨-, same⟩ := Text.run_unique same (by decide) valid.spaces.inside
    (by simpa using space_of_fileLetters letter)
    (head?_append_run valid.mode (fun _ => space_of_modeDigits) _)
  obtain ⟨d, mode, begins⟩ := List.exists_cons_of_ne_nil valid.mode.written
  rw [begins, List.cons_append] at same
  obtain ⟨rfl, -⟩ := List.cons.inj same
  have digit := valid.mode.inside c (begins ▸ List.mem_cons_self)
  rw [modeDigits_of_fileLetters letter] at digit
  cases digit

end PermissionCall

end Renewal
