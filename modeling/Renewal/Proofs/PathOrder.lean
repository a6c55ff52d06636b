import Renewal.Path

/-! # The order of paths

Texts are ordered by their code points and paths by their names, from the first one on. Both orders
are total, and among paths with the same root no two are equal in order.
-/

namespace Renewal

namespace Text

variable {s t r : Text}

theorem le_total (s t : Text) : s.le t = true ∨ t.le s = true := by
  induction s generalizing t with
  | nil => exact .inl rfl
  | cons a s ih =>
    cases t with
    | nil => exact .inr rfl
    | cons b t =>
      simp only [le, Bool.or_eq_true, decide_eq_true_eq, Bool.and_eq_true, beq_iff_eq]
      rcases Nat.lt_trichotomy a.code b.code with less | same | more
      · exact .inl (.inl less)
      · exact (ih t).imp (fun before => .inr ⟨same, before⟩) fun before => .inr ⟨same.symm, before⟩
      · exact .inr (.inl more)

theorem le_antisymm (first : s.le t = true) (second : t.le s = true) : s = t := by
  induction s generalizing t with
  | nil =>
    cases t with
    | nil => rfl
    | cons b t => cases second
  | cons a s ih =>
    cases t with
    | nil => cases first
    | cons b t =>
      simp only [le, Bool.or_eq_true, decide_eq_true_eq, Bool.and_eq_true, beq_iff_eq]
        at first second
      have same : a.code = b.code := by omega
      have head : a = b := by
        cases a
        cases b
        exact (CodePoint.mk.injEq ..).mpr same
      rw [head, ih (first.resolve_left (by omega)).2 (second.resolve_left (by omega)).2]

theorem le_trans (first : s.le t = true) (second : t.le r = true) : s.le r = true := by
  induction s generalizing t r with
  | nil => rfl
  | cons a s ih =>
    cases t with
    | nil => cases first
    | cons b t =>
      cases r with
      | nil => cases second
      | cons c r =>
        simp only [le, Bool.or_eq_true, decide_eq_true_eq, Bool.and_eq_true, beq_iff_eq]
          at first second ⊢
        rcases first with less | ⟨same, first⟩
        · left
          omega
        · rcases second with less | ⟨same', second⟩
          · left
            omega
          · exact .inr ⟨same.trans same', ih first second⟩

theorem le_append (s t : Text) : s.le (s ++ t) = true := by
  induction s with
  | nil => rfl
  | cons a s ih => simp [le, ih]

end Text

namespace Path

theorem keyLe_append_left (key first second : List Text) :
    keyLe (key ++ first) (key ++ second) = keyLe first second := by
  induction key with
  | nil => rfl
  | cons s key ih =>
    rw [List.cons_append, List.cons_append, keyLe, if_pos rfl]
    exact ih

theorem keyLe_singleton (s t : Text) : keyLe [s] [t] = s.le t := by
  by_cases same : s = t
  · subst same
    have reflexive := Text.le_append s []
    rw [List.append_nil] at reflexive
    rw [keyLe, if_pos rfl, reflexive]
    rfl
  · rw [keyLe, if_neg same]

theorem keyLe_total (key other : List Text) : keyLe key other = true ∨ keyLe other key = true := by
  induction key generalizing other with
  | nil => exact .inl rfl
  | cons s ss ih =>
    cases other with
    | nil => exact .inr rfl
    | cons t ts =>
      by_cases same : s = t
      · simpa [keyLe, same] using ih ts
      · simpa [keyLe, same, Ne.symm same] using Text.le_total s t

theorem keyLe_antisymm {key other : List Text} (first : keyLe key other = true)
    (second : keyLe other key = true) : key = other := by
  induction key generalizing other with
  | nil =>
    cases other with
    | nil => rfl
    | cons t ts => cases second
  | cons s ss ih =>
    cases other with
    | nil => cases first
    | cons t ts =>
      by_cases same : s = t
      · subst same
        rw [keyLe, if_pos rfl] at first second
        rw [ih first second]
      · rw [keyLe, if_neg same] at first
        rw [keyLe, if_neg (Ne.symm same)] at second
        exact absurd (Text.le_antisymm first second) same

theorem keyLe_trans {key other last : List Text} (first : keyLe key other = true)
    (second : keyLe other last = true) : keyLe key last = true := by
  induction key generalizing other last with
  | nil => rfl
  | cons s ss ih =>
    cases other with
    | nil => cases first
    | cons t ts =>
      cases last with
      | nil => cases second
      | cons r rs =>
        by_cases same : s = t
        · subst same
          rw [keyLe, if_pos rfl] at first
          by_cases same' : s = r
          · subst same'
            rw [keyLe, if_pos rfl] at second ⊢
            exact ih first second
          · rw [keyLe, if_neg same'] at second ⊢
            exact second
        · rw [keyLe, if_neg same] at first
          by_cases same' : t = r
          · subst same'
            rw [keyLe, if_neg same]
            exact first
          · rw [keyLe, if_neg same'] at second
            have apart : s ≠ r := by
              rintro rfl
              exact same (Text.le_antisymm first second)
            rw [keyLe, if_neg apart]
            exact Text.le_trans first second

theorem le_total (p q : Path) : (p.le q || q.le p) = true := by
  rw [Bool.or_eq_true]
  exact keyLe_total _ _

theorem le_trans (p q r : Path) (first : p.le q = true) (second : q.le r = true) :
    p.le r = true :=
  keyLe_trans first second

theorem le_antisymm {p q : Path} (sameRoot : p.root = q.root) (first : p.le q = true)
    (second : q.le p = true) : p = q := by
  have key := keyLe_antisymm first second
  obtain ⟨root, names⟩ := p
  obtain ⟨root', names'⟩ := q
  obtain rfl : root = root' := sameRoot
  cases root with
  | relative => exact congrArg (Path.mk _) key
  | slash | doubleSlash => exact congrArg (Path.mk _) (List.cons.inj key).2

end Path

end Renewal
