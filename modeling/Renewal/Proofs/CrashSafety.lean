import Renewal.Proofs.AtomicSave
import Renewal.Proofs.BackupPath

/-! # Cutting a save off

A save makes a temporary file, writes it piece by piece, gives it its mode and puts it in place, for
the saved copy first and for the file then. It can be cut off between any two of these steps, and
what is found then is one of the trees that a world has had. `Backup.save_crash_consistent` puts
these trees in order: until the copy is in place the file is as it was and there is no copy, then
both hold the old content, and in the end the file has its new text, without the bytes that an
encoding with shift states would need to close it.
-/

namespace Renewal

namespace World

variable {w : World}

/-- A world as it is found if it is left with a tree. -/
def leftWith (w : World) (t : Tree) : World :=
  { w with tree := t }

@[simp]
theorem leftWith_tree (w : World) (t : Tree) : (w.leftWith t).tree = t :=
  rfl

@[simp]
theorem leftWith_setting (w : World) (t : Tree) : (w.leftWith t).setting = w.setting :=
  rfl

theorem find_leftWith {v : World} (same : v.setting = w.setting) (t : Tree) (path : Text)
    (followLast : Bool) :
    (v.leftWith t).find path followLast = (w.leftWith t).find path followLast := by
  unfold find leftWith
  rw [limits_of_setting same, directory_of_setting same]

end World

namespace Backup

open FileSystem Renewal.Tree World

variable {w v : World} {path backup target : Path} {text suffix encoding : Text} {t : Tree}
  {data : Bytes} {mode : Nat}

theorem ending_temporaryPath (directory : Text) (target : Path) {letters : Text}
    (uncut : Path.separator ∉ letters) :
    ∃ front back, back ≠ [] ∧
      Path.ending (temporaryPath directory target letters) =
        front ++ Path.ending target.name ++ back := by
  set back : Text := ("." : Text) ++ letters ++ (".tmp" : Text) with same
  have clear : Path.separator ∉ back := by
    rw [same]
    simp only [List.mem_append, uncut, or_false, not_or]
    decide
  have more : back ≠ [] := by
    rw [same, List.append_assoc]
    exact List.append_ne_nil_of_left_ne_nil (by decide) _
  obtain ⟨around, whole⟩ : ∃ around,
      temporaryPath directory target letters = around ++ target.name ++ back := by
    unfold temporaryPath
    extract_lets around slash
    exact ⟨around ++ slash ++ ("." : Text), by simp [Text.concat, same]⟩
  obtain ⟨front, ends⟩ := Path.ending_suffix around target.name
  refine ⟨front, back, more, ?_⟩
  rw [whole, Path.ending_append_uncut _ clear, ends]

theorem names_ne_nil_of_pathFor (named : pathFor path suffix = .ok backup) :
    backup.names ≠ [] := by
  obtain ⟨-, -, rfl⟩ := pathFor_eq_ok named
  simp

/-- A temporary file does not stand where its target will. -/
theorem temporary_ne_target (closed : w.tree.Closed) (named : target.names ≠ [])
    (uncut : ∀ n k, Path.separator ∉ w.draws n k) {n k : Nat} {place goal : Location}
    (temporary : w.find (temporaryPath (Location.text w.directory) target (w.draws n k)) false =
      .ok ⟨place, none⟩)
    (missing : w.find target.text false = .ok ⟨goal, none⟩) : goal ≠ place := by
  intro same
  obtain ⟨front, back, more, ends⟩ :=
    ending_temporaryPath (Location.text w.directory) target (uncut n k)
  obtain ⟨around, atTemporary, -⟩ := (stands_of_missing closed temporary).around
  obtain ⟨around', atTarget, -⟩ := (stands_of_missing closed missing).around
  rw [same, atTemporary, Path.ending_text named, ends] at atTarget
  obtain ⟨-, sameName⟩ := List.append_inj' atTarget rfl
  have lengths := congrArg List.length (List.singleton_inj.mp sameName)
  simp only [Encoding.nameBytes_append, List.length_append] at lengths
  have none : (Encoding.nameBytes back).length = 0 := by omega
  exact more (nameBytes_eq_nil_iff.mp (List.length_eq_zero_iff.mp none))

namespace Drafting

/-- What a path leads to is the same while a temporary file is made. -/
theorem find_on (drafting : Drafting w target t) {other : Text} {followLast : Bool} {l : Location}
    {e : Entry} (finds : w.find other followLast = .ok ⟨l, some e⟩) :
    (w.leftWith t).find other followLast = .ok ⟨l, some e⟩ := by
  rcases drafting with same | ⟨n, k, place, data, mode, -, free, tree⟩
  · have onward := find_transfer (leftWith_setting w t) (.of_get? same) finds
    have entry := entry_of_find finds
    rwa [leftWith_tree, same, ← entry] at onward
  · have added : Added w (w.leftWith t) _ place data mode := ⟨free, tree, rfl⟩
    exact added.find_on finds

/-- Nothing stands at the target yet. -/
theorem unoccupied (drafting : Drafting w target t) (closed : w.tree.Closed)
    (named : target.names ≠ []) (uncut : ∀ n k, Path.separator ∉ w.draws n k)
    (free : ¬Occupied w target.text) : ¬Occupied (w.leftWith t) target.text := by
  intro occupied
  obtain ⟨written, goal, e, finds⟩ := occupied
  have present : t.get? goal = some e := (entry_of_find finds).symm
  have missing : ∀ e, w.find target.text false ≠ .ok ⟨goal, some e⟩ :=
    fun e there => free ⟨written, goal, e, there⟩
  rcases drafting with same | ⟨n, k, place, data, mode, -, temporary, tree⟩
  · have back := find_transfer (leftWith_setting w t).symm (.of_get? same.symm) finds
    rw [← same, present] at back
    exact missing e back
  · have added : Added w (w.leftWith t) _ place data mode := ⟨temporary, tree, rfl⟩
    have back := find_transfer added.setting.symm added.passages.symm finds
    have absent : w.tree.get? goal = none := by
      by_contra there
      obtain ⟨e', entry⟩ := Option.ne_none_iff_exists'.mp there
      exact missing e' (by rw [back, entry])
    rw [absent] at back
    have elsewhere := temporary_ne_target closed named uncut temporary back
    rw [tree, Function.update_of_ne elsewhere, absent] at present
    cases present

end Drafting

/-- Reading a path gives a file where a world is left with a tree. -/
def HoldsAt (w : World) (t : Tree) (path : Path) (data : Bytes) (mode : Nat) : Prop :=
  ∃ place, (w.leftWith t).find path.text = .ok ⟨place, some (.file data mode)⟩

/-- The trees of a save until the copy is in place, and those from then until the file is. -/
structure Course (w : World) (path backup : Path) (data : Bytes) (mode : Nat)
    (before between : List Tree) : Prop where
  uncopied : ∀ t ∈ before, HoldsAt w t path data mode ∧ ¬Occupied (w.leftWith t) backup.text
  copied : ∀ t ∈ between, HoldsAt w t path data mode ∧ HoldsAt w t backup data mode

section Phases

variable {place copyPlace : Location}

/-- Until the copy is in place the file is as it was, and nothing stands where the copy will. -/
theorem uncopied_of_drafting (closed : w.tree.Closed)
    (uncut : ∀ n k, Path.separator ∉ w.draws n k)
    (leads : w.find path.text = .ok ⟨place, some (.file data mode)⟩)
    (named : pathFor path suffix = .ok backup) (free : ¬Occupied w backup.text)
    (drafting : Drafting w backup t) :
    HoldsAt w t path data mode ∧ ¬Occupied (w.leftWith t) backup.text :=
  ⟨⟨place, drafting.find_on leads⟩,
    drafting.unoccupied closed (names_ne_nil_of_pathFor named) uncut free⟩

/-- While the new text is written the file and the copy are the same. -/
theorem copied_of_drafting (leads : w.find path.text = .ok ⟨place, some (.file data mode)⟩)
    (added : Added w v backup.text copyPlace data mode) (drafting : Drafting v path t) :
    HoldsAt w t path data mode ∧ HoldsAt w t backup data mode := by
  have live := drafting.find_on (added.find_on leads)
  have copy := drafting.find_on (added.found true)
  rw [find_leftWith added.setting] at live copy
  exact ⟨⟨place, live⟩, ⟨copyPlace, copy⟩⟩

/-- The trees that a world has had when the copy is in place. -/
theorem uncopied_of_copies {asked copied : World} (closed : w.tree.Closed)
    (uncut : ∀ n k, Path.separator ∉ w.draws n k)
    (leads : w.find path.text = .ok ⟨place, some (.file data mode)⟩)
    (named : pathFor path suffix = .ok backup) (free : ¬Occupied w backup.text)
    (unmoved : w.Unmoved asked)
    (copies : (replaceAtOnce backup (copy path.text)).run asked = .ok () copied) :
    ∃ copyPlace before, Placed w copied backup.text copyPlace data mode ∧
      copied.past = before ++ w.past ∧
      ∀ t ∈ before, HoldsAt w t path data mode ∧ ¬Occupied (w.leftWith t) backup.text := by
  obtain ⟨⟨copyPlace, data', mode', ⟨target, -, leads'⟩, placed⟩, ⟨before, past, drafts⟩, -⟩ :=
    (copyAside_ensures closed unmoved path backup).of_ok copies
  cases leads.symm.trans leads'
  refine ⟨copyPlace, before, placed, past, ?_⟩
  intro t member
  exact uncopied_of_drafting closed uncut leads named free (drafts t member)

end Phases

/-- Wherever a save is cut off, the file holds all of its old content or all that is written of the
new text; its copy is not there or holds all of the old content, and it does so once the file has
changed. All is written exactly if nothing is needed to close the text, as in the library's own
encodings. -/
theorem save_crash_consistent (w : World) (closed : w.tree.Closed)
    (uncut : ∀ n k, Path.separator ∉ w.draws n k) (path backup : Path)
    (text suffix encoding : Text) {place : Location} {data : Bytes} {mode : Nat}
    (leads : w.find path.text = .ok ⟨place, some (.file data mode)⟩)
    (named : pathFor path suffix = .ok backup) (free : ¬Occupied w backup.text) :
    (save path text suffix encoding).Ensures w
      (fun _ v => ∃ before between, v.past = between ++ before ++ w.past ∧
        Course w path backup data mode before between ∧
        ∃ codec encoded, w.codec? encoding = some codec ∧ codec.encode text = .ok encoded ∧
          HoldsAt w v.tree path encoded.body mode ∧ HoldsAt w v.tree backup data mode ∧
          (encoded.body = encoded.whole ↔ encoded.closing = []) ∧
          ∀ e, Encoding.ofName? encoding = some e →
            e.encode text = .ok encoded.body ∧ encoded.closing = [])
      (fun _ v => ∃ before between, v.tree :: v.past = between ++ before ++ w.past ∧
        Course w path backup data mode before between) := by
  have ends := save_ends path text suffix encoding w
  unfold Action.Ensures
  generalize (save path text suffix encoding).run w = result at ends ⊢
  cases ends with
  | taken named' occupied =>
    cases named.symm.trans named'
    exact absurd occupied free
  | @stopped _ _ v fails told =>
    cases fails with
    | naming unnamed => cases named.symm.trans unnamed
    | copying named' _ unmoved fails =>
      cases named.symm.trans named'
      obtain ⟨halted, before, past, drafts⟩ :=
        (copyAside_ensures closed unmoved path backup).of_error fails
      refine ⟨v.tree :: before, [], by rw [past]; rfl, ?_, by simp⟩
      intro t member
      apply uncopied_of_drafting closed uncut leads named free
      rcases List.mem_cons.mp member with rfl | member
      · exact halted.drafting
      · exact drafts t member
    | writing named' _ unmoved copies still fails =>
      cases named.symm.trans named'
      obtain ⟨copyPlace, before, placed, past, uncopied⟩ :=
        uncopied_of_copies closed uncut leads named free unmoved copies
      have added := placed.added free
      obtain ⟨halted, between, past', drafts⟩ :=
        (writeAnew_ensures (placed.around closed) still path text encoding
          (added.found true)).of_error fails
      refine ⟨before, v.tree :: between, ?_, uncopied, ?_⟩
      · rw [past', past, ← List.append_assoc]
        rfl
      · intro t member
        apply copied_of_drafting leads added
        rcases List.mem_cons.mp member with rfl | member
        · exact halted.drafting
        · exact drafts t member
  | @done _ _ _ _ v named' _ unmoved copies still writes =>
    cases named.symm.trans named'
    obtain ⟨copyPlace, before, placed, past, uncopied⟩ :=
      uncopied_of_copies closed uncut leads named free unmoved copies
    have added := placed.added free
    obtain ⟨⟨place, bytes, -, written, anew⟩, ⟨between, past', drafts⟩, -⟩ :=
      (writeAnew_ensures (placed.around closed) still path text encoding
        (added.found true)).of_ok writes
    refine ⟨before, between, ?_, ⟨uncopied, ?_⟩, ?_⟩
    · rw [past', past, ← List.append_assoc]
    · intro t member
      exact copied_of_drafting leads added (drafts t member)
    · have saved := saved_of_placed leads added placed.written placed.places
        (placed.around closed) ((writes_of_setting added.setting).mp written) anew
      obtain ⟨codec, encoded, known, encodes, rfl⟩ := saved.writes
      have live : v.find path.text = _ := find_of_unfollowed saved.anew (by simp)
      have copy : v.find backup.text = _ := find_of_unfollowed saved.copy (by simp)
      refine ⟨codec, encoded, known, encodes, ⟨place, ?_⟩, ⟨copyPlace, ?_⟩, ?_, ?_⟩
      · rw [← find_leftWith saved.setting]
        exact live
      · rw [← find_leftWith saved.setting]
        exact copy
      · exact (saved.writes.body_and_whole known encodes).2
      · intro e listed
        exact encode_of_known known encodes listed

/-- A directory with a file `x`, in which files are written byte by byte. -/
def piecemeal : World where
  tree := ⟨[([[120]], .file [110, 111] 0o640)]⟩
  pieces := fun _ => [1, 1]
  draws := fun _ _ => "abcdefgh"

theorem save_crash_consistent_piecemeal : ∃ backup v before between,
    (save (Path.ofText "/x") "mn" "-original" "utf-8").run piecemeal = .ok backup v ∧
    v.past = between ++ before ++ piecemeal.past ∧ v.past.length = 14 ∧
    Course piecemeal (Path.ofText "/x") (Path.ofText "/x-original") [110, 111] 0o640
      before between := by
  have closed : piecemeal.tree.Closed := closed_of_entries (by decide)
  have uncut : ∀ n k, Path.separator ∉ piecemeal.draws n k := by
    intro n k
    change Path.separator ∉ ("abcdefgh" : Text)
    decide
  have named : pathFor (Path.ofText "/x") "-original" = .ok (Path.ofText "/x-original") := by
    decide +kernel
  have leads : piecemeal.find (Path.ofText "/x").text =
      .ok ⟨[[120]], some (.file [110, 111] 0o640)⟩ := by
    decide +kernel
  have missing : piecemeal.find (Path.ofText "/x-original").text false =
      .ok ⟨[[120] ++ Encoding.nameBytes "-original"], none⟩ := by
    decide +kernel
  have steps : ((save (Path.ofText "/x") "mn" "-original" "utf-8").returned? piecemeal).map
      (fun p => p.2.past.length) = some 14 := by
    decide +kernel
  -- The world has been run; it is not to be run again wherever it is mentioned.
  generalize piecemeal = w at closed uncut leads missing steps ⊢
  have free : ¬Occupied w (Path.ofText "/x-original").text := by
    intro occupied
    obtain ⟨-, place, e, finds⟩ := occupied
    rw [missing] at finds
    cases finds
  obtain ⟨p, returned, long⟩ := Option.map_eq_some_iff.mp steps
  have returns := Action.run_of_returned? returned
  obtain ⟨before, between, past, course, -⟩ :=
    (save_crash_consistent w closed uncut (Path.ofText "/x") (Path.ofText "/x-original") "mn"
      "-original" "utf-8" leads named free).of_ok returns
  exact ⟨p.1, p.2, before, between, returns, past, long, course⟩

/-- In ISO-2022-JP a yen sign ends as neither the old content nor all of the new text. -/
theorem shift_left_open : ∃ codec encoded backup v,
    piecemeal.codec? "iso2022_jp" = some codec ∧ codec.encode "¥" = .ok encoded ∧
    (save (Path.ofText "/x") "¥" "-original" "iso2022_jp").run piecemeal = .ok backup v ∧
    HoldsAt piecemeal v.tree (Path.ofText "/x") encoded.body 0o640 ∧
    encoded.body ≠ [110, 111] ∧ encoded.body ≠ encoded.whole := by
  have holds : ((save (Path.ofText "/x") "¥" "-original" "iso2022_jp").returned? piecemeal).map
      (fun p => (piecemeal.leftWith p.2.tree).find (Path.ofText "/x").text) =
        some (.ok ⟨[[120]], some (.file [0x1B, 0x28, 0x4A, 0x5C] 0o640)⟩) := by
    decide +kernel
  have codec := codec?_iso2022Jp (w := piecemeal) rfl
  generalize piecemeal = w at holds codec ⊢
  obtain ⟨p, returns, left⟩ := Option.map_eq_some_iff.mp holds
  exact ⟨_, ⟨[0x1B, 0x28, 0x4A, 0x5C], [0x1B, 0x28, 0x42]⟩, p.1, p.2, codec, by decide +kernel,
    Action.run_of_returned? returns, ⟨_, left⟩, by decide, by decide⟩

end Backup

end Renewal
