import Mathlib.Logic.Relation
import Renewal.Proofs.SetAside
import Renewal.Proofs.UndoHistory

/-! # Saved copies are kept

Runs that do not put saved copies back and changes that users make to other files follow each other
in any order. A file whose name ends with the suffix stays as it is from the moment it exists, and
whatever a run adds to a tree is a copy of a file as it was before that run, or a temporary file
that could not be removed (`copies_kept`). A copy does not stay if a look for it fails, or if its
name is not read as one that ends with the suffix (`copies_replaced`).
-/

namespace Renewal

open Renewal.Tree World Backup

variable {suffix : Text} {t u : Tree} {around : Location} {name : EntryName} {data : Bytes}
  {mode : Nat}

/-- A run with a suffix that does not put saved copies back. Its walker lists directories, or gives
only paths that name files. -/
structure Keeping (suffix : Text) (tools : Tools) (options : RunOptions) (w : World) : Prop where
  keeps : options.reset = false
  suffix : options.suffix = suffix
  walker : (∃ followLinks, tools.walker = .native followLinks) ∨
    tools.walker.AnswersFiles w (Path.ofText options.path) options.name

/-- What can happen to a tree: a run, in which any operation but looking whether there is a copy
already can fail, or that a user writes or deletes a file that is no saved copy. -/
inductive Step (suffix : Text) : Tree → Tree → Prop
  | run {tools : Tools} {options : RunOptions} {w v : World} (sees : w.Sees)
      (keeping : Keeping suffix tools options w) (ends : (run tools options).EndsIn w v) :
      Step suffix w.tree v.tree
  | write {t : Tree} (around : Location) (name : EntryName) (data : Bytes) (mode : Nat)
      (plain : ¬suffix <:+ Utf8.decode name) (valid : IsEntryName name)
      (directory : t.get? around = some .directory)
      (notDirectory : t.get? (around ++ [name]) ≠ some .directory) :
      Step suffix t (t.set (around ++ [name]) (.file data mode))
  | delete {t : Tree} (around : Location) (name : EntryName)
      (plain : ¬suffix <:+ Utf8.decode name)
      (notDirectory : t.get? (around ++ [name]) ≠ some .directory) :
      Step suffix t (t.erase (around ++ [name]))

theorem Keeping.renewed {tools : Tools} {options : RunOptions} {w v : World}
    (keeping : Keeping suffix tools options w) (sees : w.Sees) (sound : w.tree.Sound)
    (free : w.tree.LinkFree) (ends : (run tools options).EndsIn w v) :
    (∃ files between target, Renewed suffix files w between ∧ Halted between v target) ∧
      v.tree.Distinct := by
  have answers : tools.walker.AnswersFiles w (Path.ofText options.path) options.name := by
    rcases keeping.walker with ⟨followLinks, native⟩ | answers
    · rw [native]
      exact Walker.answersFiles_native sound free (Path.clean_ofText _) followLinks _
    · exact answers
  have renews := run_renews keeping.keeps sound.closed free sees answers
  rw [keeping.suffix] at renews
  refine ⟨?_, ((staysApart_run tools options).distinct sound.distinct).of_endsIn ends⟩
  rcases ends with ⟨summary, returned⟩ | ⟨failure, raised⟩
  · obtain ⟨files, renewed⟩ := renews.of_ok returned
    exact ⟨files, v, Path.ofText [], renewed, .of_unmoved (.refl v) _⟩
  · exact renews.of_error raised

namespace Tree

theorem names_update {e : Option Entry}
    (names : ∀ l, (t.get? l).isSome → ∀ part ∈ l, IsEntryName part)
    (holds : e.isSome → t.get? around = some .directory ∧ IsEntryName name)
    (changed : u.get? = Function.update t.get? (around ++ [name]) e) :
    ∀ l, (u.get? l).isSome → ∀ part ∈ l, IsEntryName part := by
  intro l present part member
  by_cases here : l = around ++ [name]
  · rw [changed, here, Function.update_self] at present
    obtain ⟨directory, valid⟩ := holds present
    rw [here] at member
    rcases List.mem_append.mp member with inside | last
    · exact names around (by rw [directory]; rfl) part inside
    · rw [List.mem_singleton.mp last]
      exact valid
  · rw [changed, Function.update_of_ne here] at present
    exact names l present part member

/-- Changing the entry of a name in a directory, where no directory is, leaves a tree sound. -/
theorem sound_update {e : Option Entry} (closed : t.Closed)
    (names : ∀ l, (t.get? l).isSome → ∀ part ∈ l, IsEntryName part)
    (notDirectory : t.get? (around ++ [name]) ≠ some .directory)
    (holds : e.isSome → t.get? around = some .directory ∧ IsEntryName name)
    (changed : u.get? = Function.update t.get? (around ++ [name]) e) (distinct : u.Distinct) :
    u.Sound :=
  ⟨closed.update notDirectory (fun some => (holds some).1) changed, distinct,
    names_update names holds changed⟩

theorem Sound.update {e : Option Entry} (sound : t.Sound)
    (notDirectory : t.get? (around ++ [name]) ≠ some .directory)
    (holds : e.isSome → t.get? around = some .directory ∧ IsEntryName name)
    (changed : u.get? = Function.update t.get? (around ++ [name]) e) (distinct : u.Distinct) :
    u.Sound :=
  sound_update sound.closed sound.names notDirectory holds changed distinct

theorem LinkFree.update {place : Location} {e : Option Entry} (free : t.LinkFree)
    (notLink : ∀ target, e ≠ some (.link target))
    (changed : u.get? = Function.update t.get? place e) : u.LinkFree := by
  intro l target
  rw [changed]
  by_cases here : l = place
  · rw [here, Function.update_self]
    exact notLink target
  · rw [Function.update_of_ne here]
    exact free l target

end Tree

namespace Step

/-- A tree stays sound and without links. -/
theorem sound (step : Step suffix t u) (sound : t.Sound) (free : t.LinkFree) :
    u.Sound ∧ u.LinkFree := by
  cases step with
  | run sees keeping ends =>
    obtain ⟨⟨files, between, target, renewed, halted⟩, distinct⟩ :=
      keeping.renewed sees sound free ends
    have closed := renewed.closed sound.closed
    have names := fun l present => renewed.names sound free (l := l) present
    have freeNow := renewed.linkFree free
    rcases halted.cases closed with
      same | ⟨around, name, data, mode, tree, absent, directory, valid, -⟩
    · refine ⟨⟨?_, distinct, by rw [same]; exact names⟩, ?_⟩
      · unfold Closed
        rw [same]
        exact closed
      · unfold LinkFree
        rw [same]
        exact freeNow
    · exact ⟨sound_update closed names (by rw [absent]; simp) (fun _ => ⟨directory, valid⟩) tree
        distinct, freeNow.update (by simp) tree⟩
  | write around name data mode plain valid directory notDirectory =>
    have changed := get?_set t (.file data mode) (List.concat_ne_nil name around)
    exact ⟨sound.update notDirectory (fun _ => ⟨directory, valid⟩) changed (sound.distinct.set _ _),
      free.update (by simp) changed⟩
  | delete around name plain notDirectory =>
    have changed := get?_erase t (List.concat_ne_nil name around)
    exact ⟨sound.update notDirectory (by simp) changed (sound.distinct.erase _),
      free.update (by simp) changed⟩

/-- A file whose name ends with the suffix is not touched. -/
theorem keeps (step : Step suffix t u) (sound : t.Sound) (free : t.LinkFree)
    (saved : suffix <:+ Utf8.decode name)
    (file : t.get? (around ++ [name]) = some (.file data mode)) :
    u.get? (around ++ [name]) = some (.file data mode) := by
  have apart : ∀ {other name'}, ¬suffix <:+ Utf8.decode name' →
      around ++ [name] ≠ other ++ [name'] := by
    intro other name' plain same
    obtain ⟨-, sameName⟩ := List.append_inj' same rfl
    exact plain (List.singleton_inj.mp sameName ▸ saved)
  cases step with
  | run sees keeping ends =>
    obtain ⟨⟨files, between, target, renewed, halted⟩, -⟩ := keeping.renewed sees sound free ends
    rcases renewed.of_taken file with same | ⟨around', name', _, _, aside, here⟩
    · exact halted.get?_of_some (renewed.closed sound.closed) same
    · obtain ⟨-, sameName⟩ := List.append_inj' here rfl
      obtain rfl := List.singleton_inj.mp sameName
      obtain ⟨path, -, plain, names, -⟩ := aside.path
      rw [names.called, Text.endsWith, List.isSuffixOf_iff_suffix] at plain
      exact absurd saved plain
  | write other name' data' mode' plain valid directory notDirectory =>
    rw [get?_set t _ (List.concat_ne_nil name' other), Function.update_of_ne (apart plain), file]
  | delete other name' plain notDirectory =>
    rw [get?_erase t (List.concat_ne_nil name' other), Function.update_of_ne (apart plain), file]

end Step

/-- What follows from a tree, by any number of steps. -/
theorem sound_of_steps (steps : Relation.ReflTransGen (Step suffix) t u) (sound : t.Sound)
    (free : t.LinkFree) : u.Sound ∧ u.LinkFree := by
  induction steps with
  | refl => exact ⟨sound, free⟩
  | tail _ step ih => exact step.sound ih.1 ih.2

theorem keeps_of_steps (steps : Relation.ReflTransGen (Step suffix) t u) (sound : t.Sound)
    (free : t.LinkFree) (saved : suffix <:+ Utf8.decode name)
    (file : t.get? (around ++ [name]) = some (.file data mode)) :
    u.get? (around ++ [name]) = some (.file data mode) := by
  induction steps with
  | refl => exact file
  | tail steps step ih =>
    obtain ⟨sound, free⟩ := sound_of_steps steps sound free
    exact step.keeps sound free saved ih

/-- Whatever steps have led to a tree: a file in it whose name ends with the suffix is the same
after any more steps. What a run adds to the tree is a copy, under its name and the suffix, of a
file that stands beside it, or a temporary file that could not be removed. The name of such a copy
is read as one that ends with the suffix if the suffix has no surrogates. -/
theorem copies_kept (suffix : Text) {first t last : Tree} (sound : first.Sound)
    (free : first.LinkFree) (before : Relation.ReflTransGen (Step suffix) first t)
    (after : Relation.ReflTransGen (Step suffix) t last) :
    (∀ around name data mode, suffix <:+ Utf8.decode name →
      t.get? (around ++ [name]) = some (.file data mode) →
      last.get? (around ++ [name]) = some (.file data mode)) ∧
    (∀ tools options w v, w.tree = t → w.Sees → Keeping suffix tools options w →
      (run tools options).EndsIn w v →
      ∀ place e, t.get? place = none → v.tree.get? place = some e →
        (∃ around name data mode, place = copyPlace suffix around name ∧
          t.get? (around ++ [name]) = some (.file data mode) ∧ e = .file data mode) ∨
        ¬w.Clears ∧ ∃ around name data mode, place = around ++ [name] ∧
          Encoding.nameBytes ".tmp" <:+ name ∧ e = .file data mode) ∧
    ((∀ c ∈ suffix, c.isSurrogate = false) →
      ∀ name, suffix <:+ Utf8.decode (name ++ Encoding.nameBytes suffix)) := by
  obtain ⟨sound, free⟩ := sound_of_steps before sound free
  refine ⟨fun around name data mode saved file => keeps_of_steps after sound free saved file, ?_,
    fun scalar name => ?_⟩
  · intro tools options w v tree sees keeping ends place e missing added
    subst tree
    obtain ⟨⟨files, between, target, renewed, halted⟩, -⟩ := keeping.renewed sees sound free ends
    have copied : between.tree.get? place = some e → ∃ around name data mode,
        place = copyPlace suffix around name ∧
        w.tree.get? (around ++ [name]) = some (.file data mode) ∧ e = .file data mode := by
      intro added
      rcases renewed.of_free missing with none | ⟨around, name, data, mode, aside, rfl⟩
      · rw [none] at added
        cases added
      · exact ⟨around, name, data, mode, rfl, aside.before,
          Option.some.inj (added.symm.trans aside.copy)⟩
    rcases halted.cases (renewed.closed sound.closed) with
      same | ⟨around, name, data, mode, tree, -, -, -, temporary, unclear⟩
    · rw [same] at added
      exact .inl (copied added)
    · by_cases here : place = around ++ [name]
      · rw [tree, here, Function.update_self] at added
        exact .inr ⟨mt (clears_of_setting renewed.setting).mpr unclear, around, name, data, mode,
          here, temporary, (Option.some.inj added).symm⟩
      · rw [tree, Function.update_of_ne here] at added
        exact .inl (copied added)
  · rw [Encoding.decode_append_nameBytes name scalar]
    exact List.suffix_append _ _

theorem sound_lone : lone.tree.Sound ∧ lone.tree.LinkFree := by
  have single : ∀ l, (lone.tree.get? l).isSome → l = [] ∨ l = [[97]] := by
    intro l present
    by_cases inner : l = []
    · exact .inl inner
    · obtain ⟨e, entry⟩ := Option.isSome_iff_exists.mp present
      have member := mem_entries_of_get? inner entry
      exact .inr (congrArg Prod.fst (List.mem_singleton.mp member))
  refine ⟨⟨closed_of_entries (by decide), by unfold Distinct; decide, ?_⟩, ?_⟩
  · intro l present name member
    rcases single l present with rfl | rfl
    · cases member
    · obtain rfl := List.mem_singleton.mp member
      exact ⟨by decide, by decide, by decide, by decide, by decide⟩
  · intro l target link
    rcases single l (by rw [link]; rfl) with rfl | rfl
    · cases link
    · cases link

/-- Once a run has saved a copy of `a`, whatever follows leaves the copy as it is. -/
theorem copies_kept_lone : ∃ v, (run brief updating).EndsIn lone v ∧
    ∀ last, Relation.ReflTransGen (Step defaultSuffix) v.tree last →
      last.get? (copyPlace defaultSuffix [] [97]) = some (.file [110, 115, 95, 99, 112] 0o640) := by
  have copied : ((run brief updating).returned? lone).map
      (fun p => p.2.tree.get? (copyPlace defaultSuffix [] [97])) =
        some (some (.file [110, 115, 95, 99, 112] 0o640)) := by
    decide +kernel
  obtain ⟨sound, free⟩ := sound_lone
  have sees : lone.Sees := fun _ _ => rfl
  generalize lone = w at copied sound free sees ⊢
  obtain ⟨p, returns, copy⟩ := Option.map_eq_some_iff.mp copied
  have ended : (run brief updating).EndsIn w p.2 := .inl ⟨p.1, Action.run_of_returned? returns⟩
  have step : Step defaultSuffix w.tree p.2.tree :=
    .run sees ⟨rfl, rfl, .inl ⟨true, rfl⟩⟩ ended
  refine ⟨p.2, ended, fun last after => ?_⟩
  apply (copies_kept defaultSuffix sound free (.single step) after).1
  · rw [show [97] ++ Encoding.nameBytes defaultSuffix = [97] ++ suffixBytes from rfl,
      suffix_decode_iff]
    exact List.suffix_append _ _
  · exact copy

/-- Two surrogates whose bytes are read as one character. -/
def halves : Text :=
  [.ofNat 0xDCC4, .ofNat 0xDC80]

/-- The directory with a file `a`, listed as it is stored. -/
def loneListed : World where
  tree := lone.tree
  listing := ⟨fun _ names => names, fun _ _ => .refl _⟩

/-- A directory with a file `a` and a saved copy of it, where no look finds anything. -/
def overlooked : World where
  tree := ⟨[([[97]], .file [110, 115, 95, 99, 112] 0o640),
    ([[97] ++ suffixBytes], .file [120] 0o640)]⟩
  listing := ⟨fun _ names => names, fun _ _ => .refl _⟩
  faults
    | _, .look _ => some ⟨5⟩
    | _, _ => none

/-- A copy whose suffix is made of such surrogates is rewritten by another run with this suffix, and
a copy is replaced if a look fails. -/
theorem copies_replaced :
    (∃ v u, (run brief { updating with suffix := halves }).EndsIn loneListed v ∧
      v.tree.get? (copyPlace halves [] [97]) = some (.file [110, 115, 95, 99, 112] 0o640) ∧
      (run brief { updating with suffix := halves, name := "?Ā" }).EndsIn v u ∧
      u.tree.get? (copyPlace halves [] [97]) =
        some (.file [102, 105, 108, 101, 32, 99, 111, 112, 121] 0o640)) ∧
    overlooked.tree.get? (copyPlace defaultSuffix [] [97]) = some (.file [120] 0o640) ∧
    ∃ v, (run brief { updating with name := "a" }).EndsIn overlooked v ∧
      v.tree.get? (copyPlace defaultSuffix [] [97]) =
        some (.file [110, 115, 95, 99, 112] 0o640) := by
  have rewritten : (((run brief { updating with suffix := halves }).returned? loneListed).bind
      fun p => ((run brief { updating with suffix := halves, name := "?Ā" }).returned? p.2).map
        fun q => (p.2.tree.get? (copyPlace halves [] [97]),
          q.2.tree.get? (copyPlace halves [] [97]))) =
      some (some (.file [110, 115, 95, 99, 112] 0o640),
        some (.file [102, 105, 108, 101, 32, 99, 111, 112, 121] 0o640)) := by
    decide +kernel
  have replaced : ((run brief { updating with name := "a" }).returned? overlooked).map
      (fun p => p.2.tree.get? (copyPlace defaultSuffix [] [97])) =
        some (some (.file [110, 115, 95, 99, 112] 0o640)) := by
    decide +kernel
  have held : overlooked.tree.get? (copyPlace defaultSuffix [] [97]) =
      some (.file [120] 0o640) := by
    decide +kernel
  generalize loneListed = w at rewritten ⊢
  generalize overlooked = w' at replaced held ⊢
  obtain ⟨p, first, rest⟩ := Option.bind_eq_some_iff.mp rewritten
  obtain ⟨q, second, holds⟩ := Option.map_eq_some_iff.mp rest
  obtain ⟨r, only, holds'⟩ := Option.map_eq_some_iff.mp replaced
  obtain ⟨before, after⟩ := Prod.mk.inj holds
  exact ⟨⟨p.2, q.2, .inl ⟨p.1, Action.run_of_returned? first⟩, before,
    .inl ⟨q.1, Action.run_of_returned? second⟩, after⟩, held, r.2,
    .inl ⟨r.1, Action.run_of_returned? only⟩, holds'⟩

end Renewal
