import Renewal.Proofs.CommandReading

/-! # What is detected

Each heuristic has a grammar of its own (`Heuristic.Finds`), and it detects exactly the commands
that stand in the text in that way (`Heuristic.mem_detect_iff`). In particular a detected command
stands somewhere as a word, or as two words with spaces between them.
-/

namespace Renewal

namespace Text

variable {n t w x y : Text}

theorem mem_sortedSet {ts : List Text} : t ∈ sortedSet ts ↔ t ∈ ts := by
  rw [sortedSet, List.mem_mergeSort, List.mem_eraseDups]

theorem words_cons {c : CodePoint} : words (c :: x) =
    if c.isBlank then words x
    else
      match x, words x with
      | next :: _, word :: others =>
        if next.isBlank then [c] :: word :: others else (c :: word) :: others
      | _, others => [c] :: others := by
  cases x with
  | nil => rfl
  | cons d x => rfl

/-- White space before a text adds no words. -/
theorem words_append_of_blank (blank : ∀ c ∈ x, c.isBlank = true) : words (x ++ y) = words y := by
  induction x with
  | nil => rfl
  | cons c x ih =>
    obtain ⟨here, others⟩ := List.forall_mem_cons.mp blank
    rw [List.cons_append, words_cons, if_pos here, ih others]

/-- What comes before the first white space is a word. -/
theorem words_append_of_not_blank (written : w ≠ []) (solid : ∀ c ∈ w, c.isBlank = false)
    (stop : x = [] ∨ x.head?.any CodePoint.isBlank = true) : words (w ++ x) = w :: words x := by
  induction w with
  | nil => exact absurd rfl written
  | cons c w ih =>
    obtain ⟨here, others⟩ := List.forall_mem_cons.mp solid
    have notBlank : ¬c.isBlank = true := by simp [here]
    rw [List.cons_append, words_cons, if_neg notBlank]
    cases w with
    | nil =>
      rcases stop with rfl | stop
      · rfl
      · cases x with
        | nil => cases stop
        | cons d x =>
          rw [List.nil_append]
          cases words (d :: x) with
          | nil => rfl
          | cons word others => exact if_pos stop
    | cons d w =>
      have next : ¬d.isBlank = true := by simp [others d List.mem_cons_self]
      rw [ih (by simp) others]
      exact if_neg next

theorem normalizeBlanks_word (written : w ≠ []) (solid : ∀ c ∈ w, c.isBlank = false) :
    normalizeBlanks w = w := by
  have one := words_append_of_not_blank written solid (.inl rfl)
  rw [List.append_nil] at one
  rw [normalizeBlanks, one]
  exact List.append_nil w

theorem normalizeBlanks_words {gap : Text} (written : w ≠ []) (solid : ∀ c ∈ w, c.isBlank = false)
    (apart : gap ≠ []) (blank : ∀ c ∈ gap, c.isBlank = true) (written' : x ≠ [])
    (solid' : ∀ c ∈ x, c.isBlank = false) :
    normalizeBlanks (w ++ (gap ++ x)) = w ++ ((" " : Text) ++ x) := by
  have stop : (gap ++ x).head?.any CodePoint.isBlank = true := by
    obtain ⟨c, gap, rfl⟩ := List.exists_cons_of_ne_nil apart
    exact blank c List.mem_cons_self
  have last := words_append_of_not_blank written' solid' (.inl rfl)
  rw [List.append_nil] at last
  rw [normalizeBlanks, words_append_of_not_blank written solid (.inr stop),
    words_append_of_blank blank, last]
  change w ++ ((" " : Text) ++ (x ++ [])) = _
  rw [List.append_nil]

end Text

namespace Heuristic

open Pattern

variable {n t w : Text} {h : Heuristic}

/-- Where the heuristics for a line look: at its start, or after a bracket. -/
def IsStart (u : Text) : Prop :=
  u = [] ∨ u.getLast? = some ('\n' : CodePoint) ∨ u.getLast? = some ('[' : CodePoint)

/-- How the commands of a heuristic stand in a text. -/
def Finds (t n : Text) : Heuristic → Prop
  | .bracketed => ∃ u a b x : Text, IsName n ∧ (∀ c ∈ a, c.isBlank = true) ∧
      (∀ c ∈ b, c.isBlank = true) ∧ t = u ++ ("[" : Text) ++ a ++ (n ++ (b ++ (("]" : Text) ++ x)))
  | .argument => ∃ (u a b x : Text) (c : CodePoint), IsStart u ∧ IsName n ∧
      (∀ c ∈ a, c.isBlank = true) ∧ (∀ c ∈ b, c.isBlank = true) ∧
      c ∈ [('-' : CodePoint), '$', '[', '"'] ∧ t = u ++ a ++ (n ++ (b ++ c :: x))
  | .subcommand => ∃ u a w gap w' x : Text, IsStart u ∧ IsName w ∧
      IsRun ⟨[.one ' '], false⟩ gap ∧ IsRun letters w' ∧ (∀ c ∈ a, c.isBlank = true) ∧
      x.beginsWord = false ∧ t = u ++ a ++ (w ++ (gap ++ w') ++ x) ∧ n = w ++ ((" " : Text) ++ w')

theorem IsName.normalizeBlanks (isName : IsName w) : Text.normalizeBlanks w = w :=
  Text.normalizeBlanks_word isName.isRun.written (not_isBlank_of_letters isName.isRun)

theorem normalizeBlanks_call {gap w' : Text} (isName : IsName w)
    (isGap : IsRun ⟨[.one ' '], false⟩ gap) (isWord : IsRun letters w') :
    Text.normalizeBlanks (w ++ (gap ++ w')) = w ++ ((" " : Text) ++ w') :=
  Text.normalizeBlanks_words isName.isRun.written (not_isBlank_of_letters isName.isRun)
    isGap.written (isBlank_of_spaces isGap) isWord.written (not_isBlank_of_letters isWord)

theorem isStart_iff {v : Text} : IsStart v ↔ ∃ u o, v = u ++ o ∧
    (o = [] ∧ u.getLast? = none ∨ o = ("\n" : Text) ∨ o = ("[" : Text)) := by
  constructor
  · rintro (rfl | last | last)
    · exact ⟨[], [], rfl, .inl ⟨rfl, rfl⟩⟩
    · obtain ⟨u, rfl⟩ := List.getLast?_eq_some_iff.mp last
      exact ⟨u, _, rfl, .inr (.inl rfl)⟩
    · obtain ⟨u, rfl⟩ := List.getLast?_eq_some_iff.mp last
      exact ⟨u, _, rfl, .inr (.inr rfl)⟩
  · rintro ⟨u, o, rfl, ⟨rfl, first⟩ | rfl | rfl⟩
    · left
      rw [List.append_nil]
      exact List.getLast?_eq_none_iff.mp first
    · exact .inr (.inl (List.getLast?_eq_some_iff.mpr ⟨u, rfl⟩))
    · exact .inr (.inr (List.getLast?_eq_some_iff.mpr ⟨u, rfl⟩))

/-- The grammar of a heuristic, told by its readings. -/
theorem finds_iff : h.Finds t n ↔ ∃ (u : Text) (r : Reading) (x : Text), t = u ++ (r.text ++ x) ∧
    r.Valid h u.getLast? x ∧ n = Text.normalizeBlanks r.command := by
  cases h with
  | bracketed =>
    constructor
    · rintro ⟨u, a, b, x, isName, blank, blank', rfl⟩
      refine ⟨u, ⟨"[", a, n, b ++ ("]" : Text)⟩, x, by simp [Reading.text], ?_, ?_⟩
      · exact ⟨rfl, blank, isName, b, blank', rfl⟩
      · exact isName.normalizeBlanks.symm
    · rintro ⟨u, ⟨opening, a, command, closing⟩, x, rfl, ⟨rfl, blank, isName, b, blank', rfl⟩, rfl⟩
      rw [IsName.normalizeBlanks isName]
      exact ⟨u, a, b, x, isName, blank, blank', by simp [Reading.text]⟩
  | argument =>
    constructor
    · rintro ⟨v, a, b, x, c, isStart, isName, blank, blank', next, rfl⟩
      obtain ⟨u, o, rfl, opens⟩ := isStart_iff.mp isStart
      refine ⟨u, ⟨o, a, n, []⟩, b ++ c :: x, by simp [Reading.text], ?_, ?_⟩
      · exact ⟨opens, blank, isName, rfl, b, c, x, blank', next, rfl⟩
      · exact isName.normalizeBlanks.symm
    · rintro ⟨u, ⟨opening, a, command, closing⟩, _, rfl,
        ⟨opens, blank, isName, rfl, b, c, x, blank', next, rfl⟩, rfl⟩
      rw [IsName.normalizeBlanks isName]
      exact ⟨u ++ opening, a, b, x, c, isStart_iff.mpr ⟨u, opening, rfl, opens⟩, isName, blank,
        blank', next, by simp [Reading.text]⟩
  | subcommand =>
    constructor
    · rintro ⟨v, a, w, gap, w', x, isStart, isName, isGap, isWord, blank, stop, rfl, rfl⟩
      obtain ⟨u, o, rfl, opens⟩ := isStart_iff.mp isStart
      refine ⟨u, ⟨o, a, w ++ (gap ++ w'), []⟩, x, by simp [Reading.text], ?_, ?_⟩
      · exact ⟨opens, blank, ⟨w, gap, w', isName, isGap, isWord, rfl⟩, rfl, stop⟩
      · exact (normalizeBlanks_call isName isGap isWord).symm
    · rintro ⟨u, ⟨opening, a, _, closing⟩, x, rfl,
        ⟨opens, blank, ⟨w, gap, w', isName, isGap, isWord, rfl⟩, rfl, stop⟩, rfl⟩
      rw [normalizeBlanks_call isName isGap isWord]
      exact ⟨u ++ opening, a, w, gap, w', x, isStart_iff.mpr ⟨u, opening, rfl, opens⟩, isName,
        isGap, isWord, blank, stop, by simp [Reading.text], rfl⟩

theorem mem_detect : n ∈ h.detect t ↔
    n ∈ (h.pattern.findAll t).map fun m => ((m.group? 1).getD []).normalizeBlanks :=
  Text.mem_sortedSet

theorem group?_after (r : Reading) (x : Text) (before : Option CodePoint) :
    (matchTo x (r.after ⟨0, before, x, []⟩)).group? 1 = some r.command := by
  simp [Match.group?, matchTo, Reading.after]

/-- A heuristic detects exactly the commands that stand in the text in the way it looks for. -/
theorem mem_detect_iff : n ∈ h.detect t ↔ h.Finds t n := by
  rw [mem_detect, List.mem_map, finds_iff]
  constructor
  · rintro ⟨m, found, rfl⟩
    obtain ⟨u, x, e, rfl, leads, rfl⟩ := mem_findAll found
    obtain ⟨r, valid, ⟨rest, cut⟩, rfl⟩ := Reading.ways_pattern.mp leads
    obtain rfl : r.text ++ rest = x := cut
    rw [group?_after]
    refine ⟨u, r, rest, rfl, ?_, rfl⟩
    simpa using valid
  · rintro ⟨u, r, x, cut, valid, rfl⟩
    have leads : h.pattern.Ways ⟨0, u.getLast?, r.text ++ x, []⟩ _ :=
      Reading.ways_pattern.mpr ⟨r, by simpa using valid, List.prefix_append _ _, rfl⟩
    -- The match that the search finds instead may have begun before, but reads the same command.
    obtain ⟨v, d, e, rfl, leads', found, inside⟩ := exists_mem_findAll cut leads
    obtain ⟨r', valid', ⟨x', here⟩, rfl⟩ := Reading.ways_pattern.mp leads'
    have here : r'.text ++ x' = d ++ (r.text ++ x) := here
    refine ⟨_, found, ?_⟩
    rw [group?_after, Option.getD_some]
    congr 1
    apply Reading.command_eq valid (by simpa [← here] using valid') here
    rw [or_iff_not_imp_left]
    intro written
    refine ⟨?_, ?_⟩
    · rw [List.getLast?_append_of_ne_nil _ written]
      simpa using written
    · simpa [Reading.after, Spot.advanceBy] using inside.resolve_left written

/-- A command of one word or two stands at some place of a text; a report has a given name for
it. -/
structure Stands (t n first second rest : Text) : Prop where
  isFirst : IsRun letters first
  isSecond : ∀ c ∈ second, letters.contains c = true
  name : n = first ++ if second = [] then [] else (" " : Text) ++ second
  place : rest <:+ t
  takes : ∀ wholeWord output, ∃ h, Phrase.Takes ⟨first, second, wholeWord, output⟩ rest h

/-- What a heuristic looks for is followed by the end of a word. -/
theorem Finds.stands (finds : h.Finds t n) : ∃ first second rest, Stands t n first second rest := by
  obtain ⟨u, r, x, rfl, valid, rfl⟩ := finds_iff.mp finds
  have stop := valid.stops
  have place : r.command ++ (r.closing ++ x) <:+ u ++ (r.text ++ x) :=
    ⟨u ++ (r.opening ++ r.blanks), by simp [Reading.text]⟩
  have word : IsName r.command →
      Stands (u ++ (r.text ++ x)) (Text.normalizeBlanks r.command) r.command []
        (r.command ++ (r.closing ++ x)) := by
    intro isName
    refine ⟨isName.isRun, by simp, by simp [isName.normalizeBlanks], place, ?_⟩
    intro wholeWord output
    exact ⟨_, [], _, by simp [Phrase.withGap], ⟨by simp, by simp⟩, fun _ => stop, rfl⟩
  cases h with
  | bracketed | argument => exact ⟨_, _, _, word valid.isCommand⟩
  | subcommand =>
    obtain ⟨w, gap, w', isName, isGap, isWord, command⟩ := valid.isCommand
    rw [command] at place ⊢
    refine ⟨w, w', _, isName.isRun, isWord.inside, ?_, place, ?_⟩
    · rw [normalizeBlanks_call isName isGap isWord]
      simp [isWord.written]
    · intro wholeWord output
      exact ⟨_, gap, _, rfl, ⟨isBlank_of_spaces isGap, iff_of_false isGap.written isWord.written⟩,
        fun _ => stop, rfl⟩

end Heuristic

theorem mem_detectCommands {t n : Text} :
    n ∈ detectCommands t ↔ ∃ h : Heuristic, n ∈ h.detect t := by
  rw [detectCommands, Detected.commands, Text.mem_sortedSet, Detected.ofText, List.mem_flatMap]
  constructor
  · rintro ⟨_, found, member⟩
    obtain ⟨h, -, rfl⟩ := List.mem_map.mp found
    exact ⟨h, member⟩
  · rintro ⟨h, member⟩
    exact ⟨(h, h.detect t), List.mem_map.mpr ⟨h, by cases h <;> decide, rfl⟩, member⟩

/-- Each heuristic detects exactly the commands that stand in the text in its way, and together they
detect those that one of them does; none is the shorter beginning of a longer word. -/
theorem detect_exact (t : Text) :
    (∀ (h : Heuristic) (n : Text), n ∈ h.detect t ↔ h.Finds t n) ∧
    (∀ n, n ∈ detectCommands t ↔
      n ∈ Heuristic.bracketed.detect t ∨ n ∈ Heuristic.argument.detect t ∨
        n ∈ Heuristic.subcommand.detect t) ∧
    ∀ n ∈ detectCommands t, ∃ u w x : Text, t = u ++ (w ++ x) ∧ w.normalizeBlanks = n ∧
      x.beginsWord = false := by
  refine ⟨fun h n => Heuristic.mem_detect_iff, ?_, ?_⟩
  · intro n
    rw [mem_detectCommands]
    constructor
    · rintro ⟨h, detected⟩
      cases h with
      | bracketed => exact .inl detected
      | argument => exact .inr (.inl detected)
      | subcommand => exact .inr (.inr detected)
    · rintro (detected | detected | detected)
      · exact ⟨_, detected⟩
      · exact ⟨_, detected⟩
      · exact ⟨_, detected⟩
  · intro n member
    obtain ⟨h, detected⟩ := mem_detectCommands.mp member
    obtain ⟨u, r, x, rfl, valid, rfl⟩ :=
      Heuristic.finds_iff.mp (Heuristic.mem_detect_iff.mp detected)
    refine ⟨u ++ (r.opening ++ r.blanks), r.command, r.closing ++ x, ?_, rfl, valid.stops⟩
    simp [Heuristic.Reading.text]

end Renewal
