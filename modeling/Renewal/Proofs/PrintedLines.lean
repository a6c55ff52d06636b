import Renewal.Proofs.PathText
import Renewal.Text.Integer

/-! # Numerals and printed lines

The numeral of a number is made of digits and denotes the number. Lines that are printed one after
the other, each with a newline after it, can be told apart as long as no newline is within them;
where any line end counts, as long as none of these is. Making all line ends newlines changes
nothing then.
-/

namespace Renewal

/-- The end of a printed line. -/
def newline : CodePoint := '\n'

namespace Text

variable {lines : List Text}

theorem isAsciiDigit_of_mem_ofNat {n : Nat} {c : CodePoint} (member : c ∈ ofNat n) :
    c.isAsciiDigit = true := by
  obtain ⟨digit, inside, rfl⟩ := List.mem_map.mp member
  have isDigit := Nat.isDigit_of_mem_toDigits (by decide) (by decide) inside
  rw [Char.isDigit, Bool.and_eq_true, decide_eq_true_eq, decide_eq_true_eq] at isDigit
  rw [CodePoint.isAsciiDigit, CodePoint.between, Bool.and_eq_true, decide_eq_true_eq,
    decide_eq_true_eq]
  exact ⟨UInt32.le_iff_toNat_le.mp isDigit.1, UInt32.le_iff_toNat_le.mp isDigit.2⟩

theorem not_mem_ofNat {c : CodePoint} (other : c.isAsciiDigit = false) (n : Nat) :
    c ∉ ofNat n := by
  intro member
  rw [isAsciiDigit_of_mem_ofNat member] at other
  cases other

/-- A numeral denotes its number. -/
theorem ofDigits_ofNat (n : Nat) :
    Integer.ofDigits ((ofNat n).map fun c => c.code - 48) = n := by
  conv_rhs => rw [← @Nat.ofDigitChars_ten_toDigits n]
  rw [Integer.ofDigits, ofNat, List.map_map, List.foldl_map, Nat.ofDigitChars_eq_foldl]
  rfl

theorem concat_newline_cons (line : Text) (rest : List Text) :
    concat ((line :: rest).map (· ++ [newline])) =
      line ++ newline :: concat (rest.map (· ++ [newline])) := by
  simp [concat]

/-- Lines that are printed one after the other can be told apart. -/
theorem cutAt_newline (plain : ∀ line ∈ lines, newline ∉ line) :
    (concat (lines.map (· ++ [newline]))).cutAt newline = lines ++ [[]] := by
  induction lines with
  | nil => rfl
  | cons line rest ih =>
    have later := ih fun other member => plain other (List.mem_cons_of_mem _ member)
    rw [concat_newline_cons, cutAt_append, later, cutAt_of_not_mem (plain line List.mem_cons_self)]
    rfl

/-- A piece of a line, but not its end, comes through when the line end is dropped. -/
theorem dropLineEnd_cons {c : CodePoint} (plain : c.endsLine = false) (t : Text) :
    dropLineEnd (c :: t) = c :: dropLineEnd t := by
  have notReturn : c ≠ ('\r' : CodePoint) := by
    rintro rfl
    cases plain
  unfold dropLineEnd
  rw [List.reverse_cons]
  cases back : t.reverse with
  | nil =>
    obtain rfl := List.reverse_eq_nil_iff.mp back
    simp [plain]
  | cons last before =>
    have same : (before ++ [c]).head? = some ('\r' : CodePoint) ↔
        before.head? = some ('\r' : CodePoint) := by
      cases before with
      | nil => simp [notReturn]
      | cons _ _ => rfl
    simp only [List.cons_append, same]
    split
    · rename_i joined
      obtain ⟨rest, rfl⟩ := List.head?_eq_some_iff.mp joined.2
      simp
    · split
      · simp
      · rfl

theorem dropLineEnd_newline {line : Text} (plain : ∀ c ∈ line, c.endsLine = false) :
    dropLineEnd (line ++ [newline]) = line := by
  induction line with
  | nil => rfl
  | cons c rest ih =>
    rw [List.cons_append, dropLineEnd_cons (plain c List.mem_cons_self),
      ih fun d member => plain d (List.mem_cons_of_mem _ member)]

theorem lines_append_newline {line : Text} (plain : ∀ c ∈ line, c.endsLine = false)
    (rest : Text) : (line ++ newline :: rest).lines = (line ++ [newline]) :: rest.lines := by
  induction line with
  | nil => rfl
  | cons c front ih =>
    have later := ih fun d member => plain d (List.mem_cons_of_mem _ member)
    rw [List.cons_append, Text.lines, if_neg (by simp [plain c List.mem_cons_self]), later]
    rfl

/-- Lines that are printed one after the other are read as they are. -/
theorem lines_printed (plain : ∀ line ∈ lines, ∀ c ∈ line, c.endsLine = false) :
    (concat (lines.map (· ++ [newline]))).lines.map dropLineEnd = lines := by
  induction lines with
  | nil => rfl
  | cons line rest ih =>
    have here := plain line List.mem_cons_self
    have later := ih fun other member => plain other (List.mem_cons_of_mem _ member)
    rw [concat_newline_cons, lines_append_newline here, List.map_cons, dropLineEnd_newline here,
      later]

theorem flatten_lines (t : Text) : t.lines.flatten = t := by
  induction t with
  | nil => rfl
  | cons c rest ih =>
    rw [lines]
    split
    · rw [List.flatten_cons, ih]
      rfl
    · conv_rhs => rw [← ih]
      cases lines rest with
      | nil => rfl
      | cons first others => rfl

theorem dropLineEnd_prefix (line : Text) : line.dropLineEnd <+: line := by
  unfold dropLineEnd
  split
  · exact List.nil_prefix
  · rename_i c before back
    have whole : line = before.reverse ++ [c] := by
      rw [← List.reverse_reverse line, back, List.reverse_cons]
    split
    · have shorter : before.tail.reverse <+: before.reverse :=
        List.reverse_prefix.mpr (List.tail_suffix before)
      exact shorter.trans (whole ▸ List.prefix_append _ _)
    · split
      · exact whole ▸ List.prefix_append _ _
      · exact List.prefix_rfl

/-- No line end is left in what is read. -/
theorem plain_of_mem_lines {t line : Text} (member : line ∈ t.lines) :
    ∀ c ∈ dropLineEnd line, c.endsLine = false := by
  induction t generalizing line with
  | nil => cases member
  | cons c rest ih =>
    by_cases ends : c.endsLine = true
    · by_cases joined : c = ('\r' : CodePoint) ∧ rest.head? = some ('\n' : CodePoint)
      · obtain ⟨rfl, next⟩ := joined
        obtain ⟨more, rfl⟩ := List.head?_eq_some_iff.mp next
        rcases List.mem_cons.mp member with rfl | later
        · intro d inside
          cases inside
        · exact ih (List.mem_cons_of_mem _ later)
      · rw [Text.lines, if_pos ⟨ends, joined⟩] at member
        rcases List.mem_cons.mp member with rfl | later
        · simp [dropLineEnd, ends]
        · exact ih later
    · rw [Bool.not_eq_true] at ends
      rw [Text.lines, if_neg (by simp [ends])] at member
      cases after : Text.lines rest with
      | nil =>
        rw [after] at member
        obtain rfl := List.mem_singleton.mp member
        simp [dropLineEnd, ends]
      | cons first others =>
        rw [after] at member ih
        rcases List.mem_cons.mp member with rfl | later
        · rw [dropLineEnd_cons ends]
          intro d inside
          rcases List.mem_cons.mp inside with rfl | inside
          · exact ends
          · exact ih List.mem_cons_self d inside
        · exact ih (List.mem_cons_of_mem _ later)

theorem mem_of_mem_unifyNewlines {t : Text} {c : CodePoint} (member : c ∈ t.unifyNewlines) :
    c ∈ t ∨ c = newline := by
  fun_induction unifyNewlines t with
  | case1 => cases member
  | case2 rest _ ih => exact (ih member).imp_left (List.mem_cons_of_mem _)
  | case3 rest _ ih =>
    rcases List.mem_cons.mp member with here | later
    · exact .inr here
    · exact (ih later).imp_left (List.mem_cons_of_mem _)
  | case4 d rest _ ih =>
    rcases List.mem_cons.mp member with rfl | later
    · exact .inl List.mem_cons_self
    · exact (ih later).imp_left (List.mem_cons_of_mem _)

theorem unifyNewlines_eq_self {t : Text} (unreturned : ('\r' : CodePoint) ∉ t) :
    t.unifyNewlines = t := by
  fun_induction unifyNewlines t with
  | case1 => rfl
  | case2 rest _ _ | case3 rest _ _ => exact absurd List.mem_cons_self unreturned
  | case4 d rest _ ih => rw [ih fun member => unreturned (List.mem_cons_of_mem _ member)]

end Text

end Renewal
