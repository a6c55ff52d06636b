import Mathlib.Data.List.Infix
import Mathlib.Data.List.Nodup
import Mathlib.Data.List.Perm.Subperm
import Mathlib.Logic.Function.Basic
import Renewal.FileSystem.Tree
import Renewal.Proofs.Association

/-! # What changes of a tree mean

The meaning of a tree is `Tree.get?`. Putting, erasing and moving an entry change it at the places
concerned and nowhere else; each change is told as an update of that function.
-/

namespace Renewal.Tree

variable {t : Tree} {place source target k : Location} {e : Entry}

/-- Every entry stands in a directory. -/
def Closed (t : Tree) : Prop :=
  ∀ around name, (t.get? (around ++ [name])).isSome → t.get? around = some .directory

/-- No two entries stand at the same location. -/
def Distinct (t : Tree) : Prop :=
  (t.entries.map Prod.fst).Nodup

@[simp]
theorem get?_nil (t : Tree) : t.get? [] = some .directory :=
  rfl

theorem get?_of_ne (inner : k ≠ []) : t.get? k = t.entries.lookup k := by
  cases k with
  | nil => exact absurd rfl inner
  | cons _ _ => rfl

theorem isDirectory_iff : t.isDirectory place = true ↔ t.get? place = some .directory := by
  simp [isDirectory]

theorem mem_entries_of_get? (inner : k ≠ []) (present : t.get? k = some e) :
    (k, e) ∈ t.entries := by
  rw [get?_of_ne inner] at present
  obtain ⟨before, after, same, _⟩ := List.lookup_eq_some_iff.mp present
  rw [same]
  exact List.mem_append_right _ List.mem_cons_self

theorem get?_isSome_of_mem (inner : k ≠ []) (member : (k, e) ∈ t.entries) :
    (t.get? k).isSome := by
  rw [get?_of_ne inner, List.lookup_isSome_iff]
  exact ⟨(k, e), member, beq_self_eq_true k⟩

theorem get?_erase (t : Tree) (inner : place ≠ []) :
    (t.erase place).get? = Function.update t.get? place none := by
  funext k
  by_cases top : k = []
  · subst top
    rw [Function.update_of_ne (Ne.symm inner), get?_nil, get?_nil]
  · rw [get?_of_ne top]
    change (t.entries.filter fun p => p.1 != place).lookup k = _
    rw [Association.lookup_filter _ fun l => l != place]
    by_cases same : k = place
    · subst same
      simp
    · simp [same, get?_of_ne top]

theorem get?_set (t : Tree) (e : Entry) (inner : place ≠ []) :
    (t.set place e).get? = Function.update t.get? place (some e) := by
  funext k
  by_cases top : k = []
  · subst top
    rw [Function.update_of_ne (Ne.symm inner), get?_nil, get?_nil]
  · rw [get?_of_ne top]
    change ((place, e) :: (t.erase place).entries).lookup k = _
    rw [List.lookup_cons, ← get?_of_ne top, get?_erase t inner]
    by_cases same : k = place
    · subst same
      simp
    · simp [beq_false_of_ne same, Function.update_of_ne same]

/-- Whether a tree is closed can be read off its entries. -/
theorem closed_of_entries
    (around : ∀ p ∈ t.entries, t.get? p.1.dropLast = some .directory) : t.Closed := by
  intro place name present
  obtain ⟨e, entry⟩ := Option.isSome_iff_exists.mp present
  simpa using around _ (mem_entries_of_get? (by simp) entry)

/-- Nothing stands below a location. -/
def Leaf (t : Tree) (place : Location) : Prop :=
  ∀ below, below ≠ [] → t.get? (place ++ below) = none

theorem Closed.directory_of_below (closed : t.Closed) {below : Location} (proper : below ≠ [])
    (present : (t.get? (place ++ below)).isSome) : t.get? place = some .directory := by
  induction below using List.reverseRecOn with
  | nil => exact absurd rfl proper
  | append_singleton front name ih =>
    rw [← List.append_assoc] at present
    have around := closed _ _ present
    by_cases short : front = []
    · subst short
      simpa using around
    · exact ih short (by rw [around]; rfl)

theorem Closed.directory_above (closed : t.Closed) (below : Location)
    (directory : t.get? (place ++ below) = some .directory) : t.get? place = some .directory := by
  by_cases here : below = []
  · rwa [here, List.append_nil] at directory
  · exact closed.directory_of_below here (by rw [directory]; rfl)

theorem Closed.leaf (closed : t.Closed) (plain : t.get? place ≠ some .directory) :
    t.Leaf place := by
  intro below proper
  by_contra present
  exact plain (closed.directory_of_below proper (Option.isSome_iff_ne_none.mpr present))

theorem mem_namesIn {name : EntryName} :
    name ∈ t.namesIn place ↔ (t.get? (place ++ [name])).isSome := by
  rw [namesIn, List.mem_filterMap]
  constructor
  · rintro ⟨⟨l, e⟩, member, same⟩
    simp only at same
    split at same
    · rename_i around
      have whole : l = place ++ [name] := by
        obtain ⟨front, rfl⟩ := List.getLast?_eq_some_iff.mp same
        rw [List.dropLast_concat] at around
        rw [around]
      exact get?_isSome_of_mem (by simp) (whole ▸ member)
    · cases same
  · intro present
    obtain ⟨e, entry⟩ := Option.isSome_iff_exists.mp present
    exact ⟨(place ++ [name], e), mem_entries_of_get? (by simp) entry, by simp⟩

theorem Distinct.namesIn (distinct : t.Distinct) (place : Location) : (t.namesIn place).Nodup := by
  change (t.entries.filterMap
    ((fun l => if l.dropLast = place then l.getLast? else none) ∘ Prod.fst)).Nodup
  rw [← List.filterMap_map]
  refine List.Nodup.filterMap ?_ distinct
  intro l l' name named named'
  simp only [Option.mem_def] at named named'
  split at named
  · split at named'
    · rename_i around around'
      obtain ⟨front, rfl⟩ := List.getLast?_eq_some_iff.mp named
      obtain ⟨front', rfl⟩ := List.getLast?_eq_some_iff.mp named'
      rw [List.dropLast_concat] at around around'
      rw [around, around']
    · cases named'
  · cases named

theorem Distinct.erase (distinct : t.Distinct) (place : Location) : (t.erase place).Distinct :=
  List.Nodup.sublist (List.filter_sublist.map Prod.fst) distinct

theorem Distinct.set (distinct : t.Distinct) (place : Location) (e : Entry) :
    (t.set place e).Distinct := by
  refine List.nodup_cons.mpr ⟨?_, distinct.erase place⟩
  intro member
  obtain ⟨⟨l, e'⟩, kept, rfl⟩ := List.mem_map.mp member
  have other := (List.mem_filter.mp kept).2
  simp at other

/-- Where a location is after a move, if it moves. -/
def movedTo (source target l : Location) : Option Location :=
  if source.isPrefixOf l then some (target ++ l.drop source.length) else none

theorem movedTo_eq_some_iff {l l' : Location} :
    movedTo source target l = some l' ↔ ∃ rest, l = source ++ rest ∧ l' = target ++ rest := by
  unfold movedTo
  constructor
  · intro same
    split at same
    · rename_i below
      obtain ⟨rest, rfl⟩ := List.isPrefixOf_iff_prefix.mp below
      injection same with same
      exact ⟨rest, rfl, by rw [← same, List.drop_left]⟩
    · cases same
  · rintro ⟨rest, rfl, rfl⟩
    rw [if_pos (List.isPrefixOf_iff_prefix.mpr (List.prefix_append _ _)), List.drop_left]

theorem Distinct.move (distinct : t.Distinct) (source target : Location) :
    (t.move source target).Distinct := by
  have movedKeys : (t.entries.filterMap fun p =>
      if source.isPrefixOf p.1 then some (target ++ p.1.drop source.length, p.2) else none).map
        Prod.fst = (t.entries.map Prod.fst).filterMap (movedTo source target) := by
    rw [List.map_filterMap, List.filterMap_map]
    congr 1
    funext p
    rw [Function.comp_apply, movedTo]
    split <;> rfl
  have cut : (t.move source target).entries.map Prod.fst =
      (t.entries.map Prod.fst).filterMap (movedTo source target) ++
        (t.entries.filter fun p =>
          !source.isPrefixOf p.1 && !target.isPrefixOf p.1).map Prod.fst := by
    rw [← movedKeys, ← List.map_append]
    rfl
  unfold Distinct
  rw [cut, List.nodup_append]
  refine ⟨?_, List.Nodup.sublist (List.filter_sublist.map Prod.fst) distinct, ?_⟩
  · refine List.Nodup.filterMap ?_ distinct
    intro l other l' leads leads'
    obtain ⟨rest, rfl, rfl⟩ := movedTo_eq_some_iff.mp leads
    obtain ⟨rest', rfl, same⟩ := movedTo_eq_some_iff.mp leads'
    rw [List.append_cancel_left same]
  · rintro l member _ member' rfl
    obtain ⟨l', -, leads⟩ := List.mem_filterMap.mp member
    obtain ⟨rest, -, rfl⟩ := movedTo_eq_some_iff.mp leads
    obtain ⟨p, kept, same⟩ := List.mem_map.mp member'
    have outside := (List.mem_filter.mp kept).2
    rw [same, List.isPrefixOf_iff_prefix.mpr (List.prefix_append target rest)] at outside
    simp at outside

/-- A tree is no deeper than it has entries. -/
theorem Closed.length_le (closed : t.Closed) (present : (t.get? place).isSome) :
    place.length ≤ t.entries.length := by
  have inside : ∀ l ∈ (List.range place.length).map fun i => place.take (i + 1),
      l ∈ t.entries.map Prod.fst := by
    intro l member
    obtain ⟨i, inRange, rfl⟩ := List.mem_map.mp member
    have within : i < place.length := List.mem_range.mp inRange
    have inner : place.take (i + 1) ≠ [] := by
      rw [ne_eq, List.take_eq_nil_iff]
      rintro (impossible | rfl)
      · omega
      · simp at within
    have entry : (t.get? (place.take (i + 1))).isSome := by
      by_cases whole : place.drop (i + 1) = []
      · have same : place.take (i + 1) = place := by
          conv_rhs => rw [← List.take_append_drop (i + 1) place, whole, List.append_nil]
        rwa [same]
      · rw [closed.directory_of_below whole (by rwa [List.take_append_drop])]
        rfl
    obtain ⟨e, entry⟩ := Option.isSome_iff_exists.mp entry
    exact List.mem_map.mpr ⟨_, mem_entries_of_get? inner entry, rfl⟩
  have nodup : ((List.range place.length).map fun i => place.take (i + 1)).Nodup := by
    refine List.Nodup.map_on ?_ List.nodup_range
    intro i inRange j inRange' same
    have lengths := congrArg List.length same
    rw [List.length_take, List.length_take] at lengths
    have := List.mem_range.mp inRange
    have := List.mem_range.mp inRange'
    omega
  have fewer := (List.subperm_of_subset nodup inside).length_le
  simpa using fewer

/-- An entry at or below a leaf is the one at the leaf. -/
theorem Leaf.eq_of_mem (leaf : t.Leaf source) (inner : source ≠ []) {p : Location × Entry}
    (member : p ∈ t.entries) (below : source.isPrefixOf p.1) : p.1 = source := by
  obtain ⟨rest, same⟩ := List.isPrefixOf_iff_prefix.mp below
  by_contra other
  have proper : rest ≠ [] := by
    rintro rfl
    exact other (by simpa using same.symm)
  have present := get?_isSome_of_mem (t := t) (e := p.2) (by rw [← same]; simp [inner]) member
  rw [← same, leaf rest proper] at present
  cases present

theorem Leaf.lookup_below (leaf : t.Leaf source) (inner : place ≠ [])
    (below : source.isPrefixOf place) (other : place ≠ source) : t.entries.lookup place = none := by
  obtain ⟨rest, rfl⟩ := List.isPrefixOf_iff_prefix.mp below
  rw [← get?_of_ne inner]
  exact leaf rest (by rintro rfl; exact other (by simp))

/-- The entries that move, if there is at most the one at the source. -/
theorem lookup_moved {entries : List (Location × Entry)}
    (onlySource : ∀ p ∈ entries, source.isPrefixOf p.1 → p.1 = source) (l : Location) :
    (entries.filterMap fun p =>
      if source.isPrefixOf p.1 then some (target ++ p.1.drop source.length, p.2)
      else none).lookup l =
        if l = target then entries.lookup source else none := by
  induction entries with
  | nil => simp
  | cons head tail ih =>
    have tailOnly := ih fun p member => onlySource p (List.mem_cons_of_mem _ member)
    by_cases below : source.isPrefixOf head.1
    · have here := onlySource head List.mem_cons_self below
      rw [List.filterMap_cons_some (by rw [if_pos below]), List.lookup_cons, tailOnly, here,
        List.lookup_cons, here]
      by_cases same : l = target
      · subst same
        simp
      · simp [same, beq_false_of_ne same]
    · have elsewhere : source ≠ head.1 := by
        rintro same
        exact below (by rw [← same]; simp)
      rw [List.filterMap_cons_none (by rw [if_neg below]), tailOnly, List.lookup_cons,
        beq_false_of_ne elsewhere]

/-- A move between leaves moves one entry. -/
theorem get?_move (t : Tree) (sourceInner : source ≠ []) (targetInner : target ≠ [])
    (sourceLeaf : t.Leaf source) (targetLeaf : t.Leaf target) :
    (t.move source target).get? =
      Function.update (Function.update t.get? source none) target (t.get? source) := by
  have prefixSelf : ∀ l : Location, l.isPrefixOf l = true := fun l =>
    List.isPrefixOf_iff_prefix.mpr List.prefix_rfl
  funext k
  by_cases top : k = []
  · subst top
    rw [Function.update_of_ne (Ne.symm targetInner), Function.update_of_ne (Ne.symm sourceInner),
      get?_nil, get?_nil]
  rw [get?_of_ne top]
  change ((t.entries.filterMap fun p =>
      if source.isPrefixOf p.1 then some (target ++ p.1.drop source.length, p.2) else none) ++
    t.entries.filter fun p => !source.isPrefixOf p.1 && !target.isPrefixOf p.1).lookup k = _
  rw [List.lookup_append, lookup_moved fun p => sourceLeaf.eq_of_mem sourceInner,
    Association.lookup_filter _ fun l => !source.isPrefixOf l && !target.isPrefixOf l]
  by_cases atTarget : k = target
  · subst atTarget
    simp [get?_of_ne sourceInner, prefixSelf]
  rw [Function.update_of_ne atTarget, if_neg atTarget, Option.none_or]
  by_cases atSource : k = source
  · subst atSource
    simp [prefixSelf]
  rw [Function.update_of_ne atSource, get?_of_ne top]
  by_cases belowSource : source.isPrefixOf k
  · simp [belowSource, sourceLeaf.lookup_below top belowSource atSource]
  by_cases belowTarget : target.isPrefixOf k
  · simp [belowTarget, targetLeaf.lookup_below top belowTarget atTarget]
  · simp [belowSource, belowTarget]

end Renewal.Tree
