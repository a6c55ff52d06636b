import Mathlib.Data.List.Nodup
import Renewal.Json.Basic

/-! # Lists of pairs

What a list of pairs has under a key, and what setting fields does to it: a field that is set has
the new value, and the other fields keep theirs (`Fields.lookup_set`). Fields that are set one after
the other take the place of fields of their names (`Fields.lookup_update`), and those of new names
come last (`Fields.update_of_nodup`).
-/

namespace Renewal

namespace Association

variable {κ α : Type} [BEq κ] [LawfulBEq κ] {pairs : List (κ × α)} {key : κ}

theorem lookup_eq_none (absent : key ∉ pairs.map Prod.fst) : pairs.lookup key = none := by
  apply List.lookup_eq_none_iff.mpr
  intro pair among
  rw [bne_iff_ne]
  intro same
  exact absent (same ▸ List.mem_map_of_mem among)

variable [DecidableEq κ]

theorem lookup_cons (pair : κ × α) (rest : List (κ × α)) (key : κ) :
    (pair :: rest).lookup key = if key = pair.1 then some pair.2 else rest.lookup key := by
  rw [List.lookup_cons]
  by_cases same : key = pair.1
  · rw [if_pos same, beq_iff_eq.mpr same]
  · rw [if_neg same, beq_eq_false_iff_ne.mpr same]

/-- What is left of a list of pairs if their keys decide. -/
theorem lookup_filter (pairs : List (κ × α)) (keep : κ → Bool) (key : κ) :
    (pairs.filter fun pair => keep pair.1).lookup key =
      if keep key then pairs.lookup key else none := by
  induction pairs with
  | nil => simp
  | cons pair rest ih =>
    rw [List.filter_cons, lookup_cons]
    by_cases same : key = pair.1
    · rw [if_pos same, ← same]
      split
      · exact (lookup_cons pair _ key).trans (if_pos same)
      · rename_i dropped
        rw [ih, if_neg dropped]
    · rw [if_neg same, ← ih]
      split
      · exact (lookup_cons pair _ key).trans (if_neg same)
      · rfl

end Association

namespace Fields

open Association

variable {α : Type} {fields pairs : List (Text × α)} {name other : Text} {value : α}

theorem lookup_set (fields : List (Text × α)) (name : Text) (value : α) (other : Text) :
    (set fields name value).lookup other =
      if other = name then some value else fields.lookup other := by
  induction fields with
  | nil => exact lookup_cons (name, value) [] other
  | cons f rest ih =>
    rw [set]
    split
    · rename_i same
      rw [lookup_cons, lookup_cons, same]
      split <;> rfl
    · rename_i apart
      rw [lookup_cons, lookup_cons, ih]
      split
      · rename_i here
        rw [if_neg (here ▸ apart)]
      · rfl

/-- A field of a new name comes last. -/
theorem set_of_not_mem (fresh : name ∉ fields.map Prod.fst) (value : α) :
    set fields name value = fields ++ [(name, value)] := by
  induction fields with
  | nil => rfl
  | cons f rest ih =>
    rw [List.map_cons, List.mem_cons, not_or] at fresh
    rw [set, if_neg (Ne.symm fresh.1), ih fresh.2, List.cons_append]

theorem mem_of_mem_set {f : Text × α} (member : f ∈ set fields name value) :
    f ∈ fields ∨ f = (name, value) := by
  induction fields with
  | nil => exact .inr (List.mem_singleton.mp member)
  | cons g rest ih =>
    rw [set] at member
    split at member
    · rcases List.mem_cons.mp member with here | later
      · exact .inr here
      · exact .inl (List.mem_cons_of_mem g later)
    · rcases List.mem_cons.mp member with here | later
      · exact .inl (here ▸ List.mem_cons_self)
      · exact (ih later).imp_left (List.mem_cons_of_mem g)

theorem nodup_set (distinct : (fields.map Prod.fst).Nodup) (name : Text) (value : α) :
    ((set fields name value).map Prod.fst).Nodup := by
  induction fields with
  | nil => exact List.nodup_singleton name
  | cons f rest ih =>
    obtain ⟨absent, later⟩ := List.nodup_cons.mp distinct
    rw [set]
    split
    · rename_i same
      exact same ▸ distinct
    · rename_i apart
      refine List.nodup_cons.mpr ⟨fun member => ?_, ih later⟩
      obtain ⟨g, among, same⟩ := List.mem_map.mp member
      rcases mem_of_mem_set among with old | rfl
      · exact absent (same ▸ List.mem_map_of_mem old)
      · exact apart same.symm

/-- Fields that are set one after the other. -/
def update (fields pairs : List (Text × α)) : List (Text × α) :=
  pairs.foldl (fun fields f => set fields f.1 f.2) fields

theorem mem_of_mem_update {f : Text × α} (member : f ∈ update fields pairs) :
    f ∈ fields ∨ f ∈ pairs := by
  induction pairs generalizing fields with
  | nil => exact .inl member
  | cons g rest ih =>
    rcases ih member with before | later
    · refine (mem_of_mem_set before).imp_right ?_
      intro same
      exact same ▸ List.mem_cons_self
    · exact .inr (List.mem_cons_of_mem g later)

theorem nodup_update (distinct : (fields.map Prod.fst).Nodup) (pairs : List (Text × α)) :
    ((update fields pairs).map Prod.fst).Nodup := by
  induction pairs generalizing fields with
  | nil => exact distinct
  | cons f rest ih => exact ih (nodup_set distinct f.1 f.2)

/-- A field that is set once has the value that it was set to. -/
theorem lookup_update (fields : List (Text × α)) (distinct : (pairs.map Prod.fst).Nodup)
    (name : Text) : (update fields pairs).lookup name = (pairs ++ fields).lookup name := by
  induction pairs generalizing fields with
  | nil => rfl
  | cons f rest ih =>
    obtain ⟨absent, later⟩ := List.nodup_cons.mp distinct
    change (update (set fields f.1 f.2) rest).lookup name = _
    rw [ih _ later, List.cons_append, lookup_cons, List.lookup_append, List.lookup_append,
      lookup_set]
    split
    · rename_i here
      rw [here, lookup_eq_none absent]
      rfl
    · rfl

/-- Fields of new names come last, in the order in which they are set. -/
theorem update_of_nodup (distinct : ((fields ++ pairs).map Prod.fst).Nodup) :
    update fields pairs = fields ++ pairs := by
  induction pairs generalizing fields with
  | nil => exact (List.append_nil fields).symm
  | cons f rest ih =>
    have fresh : f.1 ∉ fields.map Prod.fst := by
      rw [List.map_append, List.nodup_append] at distinct
      intro member
      exact distinct.2.2 f.1 member f.1 (List.mem_map_of_mem List.mem_cons_self) rfl
    rw [List.append_cons] at distinct ⊢
    rw [← ih distinct, ← set_of_not_mem fresh]
    rfl

/-- Fields with different names are kept as they are. -/
theorem ofList_of_nodup {fields : Fields} (distinct : (fields.map Prod.fst).Nodup) :
    ofList fields = fields := by
  have whole : update [] fields = [] ++ fields := update_of_nodup distinct
  exact whole

end Fields

end Renewal
