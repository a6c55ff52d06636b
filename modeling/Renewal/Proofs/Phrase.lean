import Mathlib.Data.List.TakeWhile
import Renewal.Proofs.PatternSearch
import Renewal.Rule.Basic

/-! # Commands as patterns

Most rules look for a command of one word, or of two with white space between them, and put a given
text in its place. What such a rule takes is the command and nothing more, so that whether it takes
something is decided by the words alone and by what comes after.
-/

namespace Renewal

/-- White space is never part of a word. -/
theorem CodePoint.isWord_of_isBlank {c : CodePoint} (blank : c.isBlank = true) :
    c.isWord = false := by
  have apart : (alphanumerics.ranges.toList.all fun range =>
      [(0x85, 0x85), (0xA0, 0xA0), (0x1680, 0x1680), (0x2000, 0x200A), (0x2028, 0x2029),
        (0x202F, 0x202F), (0x205F, 0x205F), (0x3000, 0x3000)].all fun blank =>
          range.2 < blank.1 || blank.2 < range.1) = true := by
    decide +kernel
  obtain ⟨code, bound⟩ := c
  simp only [isBlank, Bool.or_eq_true, Bool.and_eq_true, decide_eq_true_eq, beq_iff_eq] at blank
  by_cases ascii : code < 0x80
  · have codes : code = 9 ∨ code = 10 ∨ code = 11 ∨ code = 12 ∨ code = 13 ∨ code = 28 ∨ code = 29 ∨
        code = 30 ∨ code = 31 ∨ code = 32 := by
      omega
    rcases codes with rfl | rfl | rfl | rfl | rfl | rfl | rfl | rfl | rfl | rfl <;> rfl
  · have outside : ∀ range ∈ alphanumerics.ranges.toList, ¬(range.1 ≤ code ∧ code ≤ range.2) := by
      intro range member inside
      have far := List.all_eq_true.mp apart range member
      simp only [List.all_cons, List.all_nil, Bool.and_true, Bool.and_eq_true, Bool.or_eq_true,
        decide_eq_true_eq] at far
      omega
    rw [isWord, if_neg ascii, CodeRanges.contains, ← Array.any_toList, List.any_eq_false]
    intro range member
    simpa using outside range member

theorem CodePoint.isBlank_of_isWord {c : CodePoint} (word : c.isWord = true) :
    c.isBlank = false := by
  by_contra blank
  rw [isWord_of_isBlank (by simpa using blank)] at word
  cases word

namespace Text

variable {m m' n x y y' : Text}

/-- A run of code points of a class that ends where the class does is the only one. -/
theorem run_unique {f : CodePoint → Bool} (same : m ++ y = m' ++ y')
    (inside : ∀ c ∈ m, f c = true) (inside' : ∀ c ∈ m', f c = true)
    (stop : y.head?.any f = false) (stop' : y'.head?.any f = false) : m = m' ∧ y = y' := by
  have taken : ∀ {m y : Text}, (∀ c ∈ m, f c = true) → y.head?.any f = false →
      (m ++ y).takeWhile f = m := by
    intro m y inside stop
    rw [List.takeWhile_append_of_pos inside]
    cases y with
    | nil => simp
    | cons c y => simp [show f c = false by simpa using stop]
  have equal : m = m' := by
    rw [← taken inside stop, same, taken inside' stop']
  subst equal
  exact ⟨rfl, List.append_cancel_left same⟩

theorem beginsWord_append (begins : m.beginsWord = true) (x : Text) :
    beginsWord (m ++ x) = true := by
  cases m with
  | nil => cases begins
  | cons c rest => exact begins

theorem isPrefix_or_isPrefix (same : m ++ x = n ++ y) : m <+: n ∨ n <+: m :=
  List.prefix_or_prefix_of_prefix ⟨x, same⟩ (List.prefix_append n y)

theorem beginsWord_of_isBlank {c : CodePoint} (blank : c.isBlank = true) :
    beginsWord (c :: x) = false := by
  simp [beginsWord, CodePoint.isWord_of_isBlank blank]

/-- Two code points that follow each other neither inside a text nor across its end. -/
theorem not_pair_prefix_drop {a b : CodePoint} {w : Text} {k : Nat} (lacks : ¬[a, b] <:+: w)
    (word : b.isWord = true) (stop : y.beginsWord = false ∨ w.getLast? ≠ some a)
    (within : k < w.length) : ¬[a, b] <+: (w ++ y).drop k := by
  intro pair
  rw [List.drop_append_of_le_length (Nat.le_of_lt within)] at pair
  have whole : w = w.take k ++ w.drop k := (List.take_append_drop k w).symm
  cases left : w.drop k with
  | nil => exact absurd (List.drop_eq_nil_iff.mp left) (Nat.not_le.mpr within)
  | cons d rest =>
    rw [left] at pair whole
    obtain ⟨rfl, next⟩ := List.cons_prefix_cons.mp pair
    cases rest with
    | nil =>
      obtain ⟨z, begins⟩ : [b] <+: y := next
      rcases stop with stop | stop
      · rw [← begins] at stop
        simp [beginsWord, word] at stop
      · exact stop (by rw [whole]; simp)
    | cons e rest =>
      obtain ⟨rfl, -⟩ := List.cons_prefix_cons.mp next
      exact lacks ⟨w.take k, rest, by rw [List.append_assoc]; exact whole.symm⟩

end Text

namespace Spot

variable {s : Spot} {m : Text}

/-- After a word character, a word ends where no other follows. -/
theorem holds_word_advanceBy {c : CodePoint} (last : m.getLast? = some c)
    (word : c.isWord = true) :
    Edge.holds (s.advanceBy m) .word = !Text.beginsWord (s.rest.drop m.length) := by
  simp [Edge.holds, afterWord, beforeWord, advanceBy, last, word, Text.beginsWord]

end Spot

/-- A command of one word or two, and what takes its place. -/
structure Phrase where
  first : Text
  /-- Nothing for a command of one word. -/
  second : Text
  /-- Whether the last word has to end. -/
  wholeWord : Bool
  output : Text
deriving DecidableEq

namespace Phrase

variable {p : Phrase} {gap x t : Text} {h : Hit} {s u : Spot}

/-- The pattern for a command. -/
def pattern (p : Phrase) : Pattern :=
  .all (p.first.map .one ++
    ((if p.second = [] then [] else [(Pattern.oneOf [.blank]).atLeastOnce]) ++
      (p.second.map .one ++ if p.wholeWord then [.edge .word] else [])))

/-- What may stand between the words of a command. -/
structure IsGap (p : Phrase) (gap : Text) : Prop where
  blank : ∀ c ∈ gap, c.isBlank = true
  between : gap = [] ↔ p.second = []

/-- A command with something between its words. -/
def withGap (p : Phrase) (gap : Text) : Text :=
  p.first ++ (gap ++ p.second)

/-- A command is taken at the start of a text. -/
def Takes (p : Phrase) (t : Text) (h : Hit) : Prop :=
  ∃ gap x, t = p.withGap gap ++ x ∧ p.IsGap gap ∧ (p.wholeWord = true → x.beginsWord = false) ∧
    h = ⟨p.withGap gap, p.output⟩

/-- A command has a first word, its words are made of word characters, and the first one ends where
the pattern says. -/
structure Proper (p : Phrase) : Prop where
  written : p.first ≠ []
  words : ∀ c ∈ p.first ++ p.second, c.isWord = true
  ends : p.wholeWord = true ∨ p.second ≠ []

instance : DecidablePred Proper := fun p =>
  decidable_of_iff (p.first ≠ [] ∧ (∀ c ∈ p.first ++ p.second, c.isWord = true) ∧
    (p.wholeWord = true ∨ p.second ≠ []))
    ⟨fun ⟨written, words, ends⟩ => ⟨written, words, ends⟩,
      fun proper => ⟨proper.written, proper.words, proper.ends⟩⟩

theorem ways_gap : (Pattern.all
    (if p.second = [] then [] else [(Pattern.oneOf [.blank]).atLeastOnce])).Ways s u ↔
      ∃ gap, p.IsGap gap ∧ gap <+: s.rest ∧ u = s.advanceBy gap := by
  by_cases single : p.second = []
  · rw [if_pos single]
    constructor
    · intro same
      refine ⟨[], ⟨by simp, by simp [single]⟩, List.nil_prefix, ?_⟩
      rw [show u = s from same]
      simp [Spot.advanceBy]
    · rintro ⟨gap, isGap, -, rfl⟩
      rw [isGap.between.mpr single]
      simp [Pattern.all, Pattern.Ways, Spot.advanceBy]
  · rw [if_neg single]
    refine Pattern.ways_atLeastOnce.trans ?_
    constructor
    · rintro ⟨gap, ⟨written, inside⟩, onward, same⟩
      simp only [Pattern.contains_blank] at inside
      exact ⟨gap, ⟨inside, iff_of_false written single⟩, onward, same⟩
    · rintro ⟨gap, isGap, onward, same⟩
      refine ⟨gap, ⟨mt isGap.between.mp single, ?_⟩, onward, same⟩
      simpa only [Pattern.contains_blank] using isGap.blank

theorem ways_end : (Pattern.all (if p.wholeWord then [.edge .word] else [])).Ways s u ↔
    (p.wholeWord = true → Edge.holds s .word = true) ∧ u = s := by
  cases p.wholeWord <;> simp [Pattern.all, Pattern.Ways]

theorem getLast?_withGap (proper : p.Proper) (isGap : p.IsGap gap) :
    ∃ c ∈ p.first ++ p.second, (p.withGap gap).getLast? = some c := by
  by_cases single : p.second = []
  · refine ⟨p.first.getLast proper.written,
      List.mem_append_left _ (List.getLast_mem proper.written), ?_⟩
    rw [withGap, isGap.between.mpr single, single, List.append_nil, List.append_nil,
      List.getLast?_eq_some_getLast proper.written]
  · refine ⟨p.second.getLast single, List.mem_append_right _ (List.getLast_mem single), ?_⟩
    rw [withGap, List.getLast?_append, List.getLast?_append, List.getLast?_eq_some_getLast single]
    rfl

/-- A pattern for a command leads past the command. -/
theorem ways_pattern (proper : p.Proper) : p.pattern.Ways s u ↔ ∃ gap, p.IsGap gap ∧
    p.withGap gap <+: s.rest ∧
    (p.wholeWord = true → Text.beginsWord (s.rest.drop (p.withGap gap).length) = false) ∧
    u = s.advanceBy (p.withGap gap) := by
  have exact : ∀ {w : Text} {s u : Spot}, (Pattern.all (w.map .one)).Ways s u ↔
      w <+: s.rest ∧ u = s.advanceBy w := Pattern.ways_exactly
  have stops : ∀ {gap}, p.IsGap gap → (Edge.holds (s.advanceBy (p.withGap gap)) .word = true ↔
      Text.beginsWord (s.rest.drop (p.withGap gap).length) = false) := by
    intro gap isGap
    obtain ⟨c, member, last⟩ := getLast?_withGap proper isGap
    rw [Spot.holds_word_advanceBy last (proper.words c member)]
    simp
  have along : ∀ gap, ((s.advanceBy p.first).advanceBy gap).advanceBy p.second =
      s.advanceBy (p.withGap gap) := by
    intro gap
    rw [Spot.advanceBy_advanceBy, Spot.advanceBy_advanceBy, withGap]
  simp only [pattern, Pattern.ways_all_append, exact, ways_gap, ways_end]
  constructor
  · rintro ⟨_, ⟨first, rfl⟩, _, ⟨gap, isGap, between, rfl⟩, _, ⟨second, rfl⟩, ends, rfl⟩
    rw [along] at ends ⊢
    have others := Text.append_prefix_iff.mpr ⟨between, second⟩
    exact ⟨gap, isGap, Text.append_prefix_iff.mpr ⟨first, others⟩,
      fun whole => (stops isGap).mp (ends whole), rfl⟩
  · rintro ⟨gap, isGap, here, ends, rfl⟩
    obtain ⟨first, others⟩ := Text.append_prefix_iff.mp here
    obtain ⟨between, second⟩ := Text.append_prefix_iff.mp others
    refine ⟨_, ⟨first, rfl⟩, _, ⟨gap, isGap, between, rfl⟩, _, ⟨second, rfl⟩, ?_⟩
    rw [along]
    exact ⟨fun whole => (stops isGap).mpr (ends whole), rfl⟩

theorem gap_unique (proper : p.Proper) {gap' x' : Text} (isGap : p.IsGap gap)
    (isGap' : p.IsGap gap') (same : p.withGap gap ++ x = p.withGap gap' ++ x') :
    gap = gap' ∧ x = x' := by
  rw [withGap, withGap, List.append_assoc, List.append_assoc, List.append_assoc,
    List.append_assoc] at same
  have same := List.append_cancel_left same
  cases single : p.second with
  | nil =>
    rw [isGap.between.mpr single, isGap'.between.mpr single] at same ⊢
    exact ⟨rfl, by simpa using same⟩
  | cons c second =>
    have word : c.isBlank = false := CodePoint.isBlank_of_isWord (proper.words c (by simp [single]))
    rw [single] at same
    obtain ⟨sameGap, sameRest⟩ :=
      Text.run_unique same isGap.blank isGap'.blank (by simpa) (by simpa)
    exact ⟨sameGap, List.append_cancel_left sameRest⟩

theorem reads (proper : p.Proper) : p.pattern.Reads fun t m => ∃ gap x, t = p.withGap gap ++ x ∧
    p.IsGap gap ∧ (p.wholeWord = true → x.beginsWord = false) ∧ m = ⟨p.withGap gap, []⟩ where
  sound := by
    intro before t u leads
    obtain ⟨gap, isGap, ⟨x, here⟩, ends, rfl⟩ := (ways_pattern proper).mp leads
    have here : t = p.withGap gap ++ x := here.symm
    refine ⟨gap, x, here, isGap, ?_, ?_⟩
    · intro whole
      have stop := ends whole
      rwa [here, List.drop_left] at stop
    · simp [Pattern.matchTo, Spot.advanceBy, here]
  complete := by
    rintro _ _ before ⟨gap, x, rfl, isGap, ends, rfl⟩
    exact ⟨_, (ways_pattern proper).mpr
      ⟨gap, isGap, List.prefix_append _ _, by simpa using ends, rfl⟩⟩
  unique := by
    rintro _ _ _ ⟨gap, x, rfl, isGap, -, rfl⟩ ⟨gap', x', same, isGap', -, rfl⟩
    rw [(gap_unique proper isGap isGap' same).1]
  proper := by
    rintro _ _ ⟨gap, x, -, -, -, rfl⟩
    simp [withGap, proper.written]

/-- A rule for a command takes the command. -/
theorem hit?_eq_some_iff (proper : p.Proper) {replacement : Match → Text}
    (writes : ∀ m, replacement m = p.output) :
    p.pattern.hit? replacement t = some h ↔ p.Takes t h := by
  rw [(reads proper).hit?_eq_some_iff]
  simp only [writes]
  constructor
  · rintro ⟨_, ⟨gap, x, cut, isGap, ends, rfl⟩, rfl⟩
    exact ⟨gap, x, cut, isGap, ends, rfl⟩
  · rintro ⟨gap, x, cut, isGap, ends, rfl⟩
    exact ⟨_, ⟨gap, x, cut, isGap, ends, rfl⟩, rfl⟩

/-- What a command takes does not depend on what comes after it, but for whether a word goes on. -/
theorem Takes.nearby {y : Text} (takes : p.Takes (h.taken ++ x) h)
    (same : x.beginsWord = y.beginsWord) : p.Takes (h.taken ++ y) h := by
  obtain ⟨gap, x', cut, isGap, ends, rfl⟩ := takes
  have rest := List.append_cancel_left cut
  refine ⟨gap, y, rfl, isGap, fun whole => ?_, rfl⟩
  rw [← same, rest, ends whole]

theorem head?_first (proper : p.Proper) : ∃ c rest, p.first = c :: rest ∧ c.isWord = true := by
  obtain ⟨c, rest, cut⟩ := List.exists_cons_of_ne_nil proper.written
  exact ⟨c, rest, cut, proper.words c (by simp [cut])⟩

/-- Two code points that a command does not have next to each other but at its start, whatever
comes after it. -/
def Lacks (p : Phrase) (a b : CodePoint) : Prop :=
  a.isWord = true ∧ b.isWord = true ∧ ¬[a, b] <:+: p.first.tail ∧ ¬[a, b] <:+: p.second ∧
    (p.wholeWord = true ∨ p.second.getLast? ≠ some a)

instance (a b : CodePoint) : DecidablePred fun p => Lacks p a b :=
  fun _ => inferInstanceAs (Decidable (_ ∧ _))

theorem Takes.not_pair {a b : CodePoint} {k : Nat} (takes : p.Takes t h) (lacks : p.Lacks a b)
    (proper : p.Proper) (later : 0 < k) (within : k < h.taken.length) :
    ¬[a, b] <+: t.drop k := by
  obtain ⟨gap, x, rfl, isGap, ends, rfl⟩ := takes
  obtain ⟨wordA, wordB, lacksFirst, lacksSecond, last⟩ := lacks
  obtain ⟨c, first, cut, -⟩ := head?_first proper
  simp only [withGap, List.append_assoc, List.length_append] at within ⊢
  by_cases inFirst : k < p.first.length
  · -- The first word is followed by white space, or is the last one.
    obtain ⟨j, rfl⟩ := Nat.exists_eq_succ_of_ne_zero (Nat.ne_of_gt later)
    rw [cut] at lacksFirst inFirst ⊢
    change ¬[a, b] <+: (first ++ (gap ++ (p.second ++ x))).drop j
    refine Text.not_pair_prefix_drop lacksFirst wordB ?_ (by simpa using inFirst)
    left
    cases gap with
    | nil =>
      have single := isGap.between.mp rfl
      rw [single, List.nil_append, List.nil_append]
      exact ends (proper.ends.resolve_right (not_not.mpr single))
    | cons d gap => exact Text.beginsWord_of_isBlank (isGap.blank d List.mem_cons_self)
  · rw [List.drop_append, List.drop_eq_nil_iff.mpr (Nat.le_of_not_lt inFirst), List.nil_append]
    by_cases inGap : k - p.first.length < gap.length
    · rw [List.drop_append_of_le_length (Nat.le_of_lt inGap)]
      cases left : gap.drop (k - p.first.length) with
      | nil => exact absurd (List.drop_eq_nil_iff.mp left) (Nat.not_le.mpr inGap)
      | cons d rest =>
        intro pair
        have blank := isGap.blank d (List.mem_of_mem_drop (left ▸ List.mem_cons_self))
        obtain ⟨rfl, -⟩ := List.cons_prefix_cons.mp pair
        rw [CodePoint.isWord_of_isBlank blank] at wordA
        cases wordA
    · rw [List.drop_append, List.drop_eq_nil_iff.mpr (Nat.le_of_not_lt inGap), List.nil_append]
      refine Text.not_pair_prefix_drop lacksSecond wordB ?_ (by omega)
      exact last.imp_left ends

/-- Whether a command cannot be read at the start of any text that begins with a given one. -/
def clashes (p : Phrase) (o : Text) : Bool :=
  let next : Text := o.drop p.first.length
  let later : Text := next.dropWhile CodePoint.isBlank
  if p.first.isPrefixOf o then
    if p.second.isEmpty then p.wholeWord && next.beginsWord
    else !later.isEmpty && !p.second.isPrefixOf later && !later.isPrefixOf p.second
  else !o.isPrefixOf p.first

theorem not_takes_of_clashes (proper : p.Proper) {o : Text} (clash : p.clashes o = true) :
    ¬p.Takes (o ++ x) h := by
  rintro ⟨gap, y, cut, isGap, ends, -⟩
  rw [withGap, List.append_assoc, List.append_assoc] at cut
  by_cases begins : p.first.isPrefixOf o = true
  · obtain ⟨next, rfl⟩ := List.isPrefixOf_iff_prefix.mp begins
    rw [List.append_assoc] at cut
    have cut := List.append_cancel_left cut
    simp only [clashes, begins, ↓reduceIte, List.drop_left] at clash
    by_cases single : p.second = []
    · rw [isGap.between.mpr single, single, List.nil_append, List.nil_append] at cut
      simp only [single, List.isEmpty_nil, ↓reduceIte, Bool.and_eq_true] at clash
      have stops := ends clash.1
      rw [← cut, Text.beginsWord_append clash.2] at stops
      cases stops
    · simp only [List.isEmpty_iff, single, ↓reduceIte, Bool.and_eq_true, Bool.not_eq_true',
        List.isEmpty_eq_false_iff] at clash
      obtain ⟨⟨written, notBefore⟩, notAfter⟩ := clash
      obtain ⟨c, later, left⟩ := List.exists_cons_of_ne_nil written
      obtain ⟨d, second, cutSecond⟩ := List.exists_cons_of_ne_nil single
      have spaced : next = next.takeWhile CodePoint.isBlank ++ c :: later := by
        rw [← left, List.takeWhile_append_dropWhile]
      have notBlank : c.isBlank = false := by
        have head := List.head_dropWhile_not CodePoint.isBlank written
        simpa [left] using head
      have word : d.isBlank = false :=
        CodePoint.isBlank_of_isWord (proper.words d (by simp [cutSecond]))
      rw [spaced, List.append_assoc, cutSecond] at cut
      obtain ⟨-, same⟩ := Text.run_unique cut (fun c => List.mem_takeWhile_imp)
        isGap.blank (by simpa using notBlank) (by simpa using word)
      rw [left] at notBefore notAfter
      rw [cutSecond] at notBefore notAfter
      rcases Text.isPrefix_or_isPrefix same with isPrefix | isPrefix
      · rw [List.isPrefixOf_iff_prefix.mpr isPrefix] at notAfter
        cases notAfter
      · rw [List.isPrefixOf_iff_prefix.mpr isPrefix] at notBefore
        cases notBefore
  · simp only [clashes, begins, Bool.false_eq_true, ↓reduceIte, Bool.not_eq_true'] at clash
    rcases Text.isPrefix_or_isPrefix cut with isPrefix | isPrefix
    · rw [List.isPrefixOf_iff_prefix.mpr isPrefix] at clash
      cases clash
    · exact begins (List.isPrefixOf_iff_prefix.mpr isPrefix)

/-- The first word of a command is the word with which a text begins. -/
theorem Takes.takeWhile_eq (takes : p.Takes t h) (proper : p.Proper) :
    t.takeWhile CodePoint.isWord = p.first := by
  obtain ⟨gap, x, rfl, isGap, ends, rfl⟩ := takes
  have stops : Text.beginsWord (gap ++ (p.second ++ x)) = false := by
    cases gap with
    | nil =>
      have single := isGap.between.mp rfl
      rw [single]
      exact ends (proper.ends.resolve_right (not_not.mpr single))
    | cons c gap => exact Text.beginsWord_of_isBlank (isGap.blank c List.mem_cons_self)
  rw [withGap, List.append_assoc, List.append_assoc, List.takeWhile_append_of_pos
    fun c member => proper.words c (List.mem_append_left _ member)]
  cases rest : gap ++ (p.second ++ x) with
  | nil => simp
  | cons c rest' =>
    rw [rest] at stops
    simp [show c.isWord = false by simpa [Text.beginsWord] using stops]

/-- Two commands with the same first word that are read at one place have the same second word. -/
theorem Takes.second_eq {q : Phrase} {h' : Hit} (takes : p.Takes t h) (takes' : q.Takes t h')
    (proper : p.Proper) (proper' : q.Proper) (whole : p.wholeWord = true)
    (whole' : q.wholeWord = true) (first : p.first = q.first) (double : p.second ≠ [])
    (double' : q.second ≠ []) : p.second = q.second := by
  obtain ⟨gap, x, rfl, isGap, ends, rfl⟩ := takes
  obtain ⟨gap', x', cut, isGap', ends', rfl⟩ := takes'
  rw [withGap, withGap, first, List.append_assoc, List.append_assoc, List.append_assoc,
    List.append_assoc] at cut
  have cut := List.append_cancel_left cut
  have starts : ∀ {q : Phrase} (x : Text), q.Proper → q.second ≠ [] →
      (q.second ++ x).head?.any CodePoint.isBlank = false := by
    intro q x proper double
    obtain ⟨c, second, same⟩ := List.exists_cons_of_ne_nil double
    simp [same, CodePoint.isBlank_of_isWord (proper.words c (by simp [same]))]
  obtain ⟨-, later⟩ := Text.run_unique cut isGap.blank isGap'.blank (starts x proper double)
    (starts x' proper' double')
  exact (Text.run_unique later (fun c member => proper.words c (List.mem_append_right _ member))
    (fun c member => proper'.words c (List.mem_append_right _ member)) (ends whole)
    (ends' whole')).1

end Phrase

end Renewal
