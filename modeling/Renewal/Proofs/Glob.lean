import Mathlib.Data.List.Infix
import Renewal.Glob

/-! # What file name patterns match

The matcher keeps one truth for each end of a text; `Glob.Fits` says of one end alone whether the
parts of a pattern fit it. An asterisk and a text without special characters fit the texts that end
with it.
-/

namespace Renewal

namespace Glob

variable {items rest : List GlobItem} {t : Text}

/-- The parts of a pattern fit a whole text. -/
def Fits : List GlobItem → Text → Prop
  | [], t => t = []
  | .anything :: rest, t => ∃ ending, ending <:+ t ∧ Fits rest ending
  | .one set :: rest, t => ∃ c after, t = c :: after ∧ set.contains c = true ∧ Fits rest after

/-- A list of truths, one for each end of a text from the whole down to the empty one. -/
def Tells (truths : List Bool) (holds : Text → Prop) : Text → Prop
  | [] => ∃ truth, truths = [truth] ∧ (truth = true ↔ holds [])
  | c :: t => ∃ truth later, truths = truth :: later ∧ (truth = true ↔ holds (c :: t)) ∧
    Tells later holds t

theorem Tells.head {truths : List Bool} {holds : Text → Prop} (tells : Tells truths holds t) :
    ∃ truth later, truths = truth :: later ∧ (truth = true ↔ holds t) := by
  cases t with
  | nil =>
    obtain ⟨truth, same, iff⟩ := tells
    exact ⟨truth, [], same, iff⟩
  | cons c t =>
    obtain ⟨truth, later, same, iff, -⟩ := tells
    exact ⟨truth, later, same, iff⟩

theorem tells_nil (t : Text) : Tells (t.map (fun _ => false) ++ [true]) (Fits []) t := by
  induction t with
  | nil => exact ⟨true, rfl, by simp [Fits]⟩
  | cons c t ih => exact ⟨false, _, rfl, by simp [Fits], ih⟩

theorem tells_anything {truths : List Bool} (tells : Tells truths (Fits rest) t) :
    Tells (someFrom truths) (Fits (.anything :: rest)) t := by
  induction t generalizing truths with
  | nil =>
    obtain ⟨truth, rfl, iff⟩ := tells
    exact ⟨truth, by simp [someFrom], by simp [Fits, iff]⟩
  | cons c t ih =>
    obtain ⟨truth, later, rfl, iff, tells⟩ := tells
    have onward := ih tells
    refine ⟨truth || (someFrom later).headD false, someFrom later, rfl, ?_, onward⟩
    obtain ⟨truth', later', same, iff'⟩ := onward.head
    rw [same, List.headD_cons, Bool.or_eq_true, iff, iff']
    constructor
    · rintro (here | ⟨ending, later, fits⟩)
      · exact ⟨c :: t, List.suffix_rfl, here⟩
      · exact ⟨ending, later.trans (List.suffix_cons c t), fits⟩
    · rintro ⟨ending, later, fits⟩
      rcases List.suffix_cons_iff.mp later with rfl | later
      · exact .inl fits
      · exact .inr ⟨ending, later, fits⟩

theorem tells_one {set : CharClass} {truths : List Bool} (tells : Tells truths (Fits rest) t) :
    Tells (List.zipWith (fun c later => set.contains c && later) t truths.tail ++ [false])
      (Fits (.one set :: rest)) t := by
  induction t generalizing truths with
  | nil =>
    obtain ⟨truth, rfl, -⟩ := tells
    exact ⟨false, rfl, by simp [Fits]⟩
  | cons c t ih =>
    obtain ⟨truth, later, rfl, -, tells⟩ := tells
    obtain ⟨truth', later', same, iff⟩ := tells.head
    refine ⟨set.contains c && truth', _, by rw [List.tail_cons, same]; rfl, ?_, ?_⟩
    · rw [Bool.and_eq_true, iff]
      exact ⟨fun ⟨inside, fits⟩ => ⟨c, t, rfl, inside, fits⟩, by
        rintro ⟨c', after, same, inside, fits⟩
        cases same
        exact ⟨inside, fits⟩⟩
    · have onward := ih tells
      rwa [same] at onward

theorem tells_matchesEnds (items : List GlobItem) (t : Text) :
    Tells (matchesEnds items t) (Fits items) t := by
  induction items with
  | nil => exact tells_nil t
  | cons item rest ih =>
    cases item with
    | anything => exact tells_anything ih
    | one set => exact tells_one ih

/-- The matcher decides whether the parts of a pattern fit. -/
theorem matchesAll_iff : matchesAll items t = true ↔ Fits items t := by
  obtain ⟨truth, later, same, iff⟩ := (tells_matchesEnds items t).head
  rw [matchesAll, same, List.headD_cons, iff]

/-- A code point that stands for itself in a pattern. -/
def IsLiteral (c : CodePoint) : Prop :=
  c ≠ ('*' : CodePoint) ∧ c ≠ ('?' : CodePoint) ∧ c ≠ ('[' : CodePoint)

instance (c : CodePoint) : Decidable (IsLiteral c) :=
  inferInstanceAs (Decidable (_ ∧ _ ∧ _))

theorem ofText_literal {s : Text} (literal : ∀ c ∈ s, IsLiteral c) :
    ofTextFrom 0 s = s.map fun c => .one ⟨[.one c], false⟩ := by
  induction s with
  | nil => rfl
  | cons c rest ih =>
    obtain ⟨asterisk, question, bracket⟩ := literal c List.mem_cons_self
    rw [ofTextFrom, if_neg asterisk, if_neg question, if_neg bracket,
      ih fun c member => literal c (List.mem_cons_of_mem _ member)]
    rfl

theorem fits_literal {s : Text} :
    Fits (s.map fun c => .one ⟨[.one c], false⟩) t ↔ t = s := by
  induction s generalizing t with
  | nil => rfl
  | cons c rest ih =>
    simp only [List.map_cons, Fits, ih]
    constructor
    · rintro ⟨c', after, rfl, inside, rfl⟩
      obtain rfl : c' = c := by simpa [CharClass.contains, ClassItem.contains] using inside
      rfl
    · rintro rfl
      exact ⟨c, rest, rfl, by simp [CharClass.contains, ClassItem.contains], rfl⟩

/-- A text without an opening bracket is a pattern that it fits itself. -/
theorem fits_self {s : Text} (plain : ('[' : CodePoint) ∉ s) : Fits (ofTextFrom 0 s) s := by
  induction s with
  | nil => rfl
  | cons c rest ih =>
    simp only [List.mem_cons, not_or] at plain
    obtain ⟨bracket, later⟩ := plain
    have fits := ih later
    rw [ofTextFrom, if_neg (Ne.symm bracket)]
    split_ifs
    · exact ⟨rest, List.suffix_cons c rest, fits⟩
    · exact ⟨c, rest, rfl, rfl, fits⟩
    · exact ⟨c, rest, rfl, by simp [CharClass.contains, ClassItem.contains], fits⟩

end Glob

/-- An asterisk before a text without special characters matches the names that end with it. -/
theorem globMatches_asterisk {s t : Text} (literal : ∀ c ∈ s, Glob.IsLiteral c) :
    globMatches (('*' : CodePoint) :: s) t = true ↔ s <:+ t := by
  have parts : Glob.ofText (('*' : CodePoint) :: s) =
      .anything :: s.map fun c => .one ⟨[.one c], false⟩ := by
    rw [Glob.ofText, Glob.ofTextFrom, if_pos rfl, Glob.ofText_literal literal]
  rw [globMatches, Glob.matchesAll_iff, parts, Glob.Fits]
  simp only [Glob.fits_literal]
  exact ⟨fun ⟨_, ends, same⟩ => same ▸ ends, fun ends => ⟨s, ends, rfl⟩⟩

/-- An asterisk before a text without an opening bracket matches the names that end with it. -/
theorem globMatches_of_suffix {s t : Text} (plain : ('[' : CodePoint) ∉ s) (ends : s <:+ t) :
    globMatches (('*' : CodePoint) :: s) t = true := by
  rw [globMatches, Glob.matchesAll_iff, Glob.ofText, Glob.ofTextFrom, if_pos rfl]
  exact ⟨s, ends, Glob.fits_self plain⟩

end Renewal
