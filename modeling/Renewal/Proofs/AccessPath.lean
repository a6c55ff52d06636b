import Renewal.Proofs.Depth
import Renewal.Proofs.Walk

/-! # Paths in trees with links

`World.Leads` says where the names of a path lead, however many links are on the way. In a world
whose limits are high enough for a path (`World.Ample`) this is what is found there. What a path
below a root leads to is told by the directory that its last name stands in.
-/

namespace Renewal

open Renewal.Tree FileSystem Filter

namespace Path

/-- The way to an entry ends with its name. -/
theorem pathNames_join {d : Text} {name : EntryName} (written : d ≠ []) (valid : IsEntryName name) :
    ∃ front,
      pathNames (Encoding.nameBytes (Walker.join d (Utf8.decode name))) = front ++ [name] := by
  have part := valid.isPart
  have after : ∀ lead : Text, ∃ front,
      pathNames (Encoding.nameBytes (lead ++ separator :: Utf8.decode name)) = front ++ [name] := by
    intro lead
    obtain ⟨front, whole⟩ := exists_pathNames_append (lead ++ [separator])
    have ends := whole (Utf8.decode name) part.written part.uncut
    rw [ending_separator, show ending [] = [] from rfl, List.nil_append, Encoding.nameBytes_decode,
      List.append_assoc, List.singleton_append] at ends
    exact ⟨front, ends⟩
  unfold Walker.join
  split
  · rename_i slash
    obtain ⟨lead, last, rfl⟩ := (List.eq_nil_or_concat d).resolve_left written
    rw [List.concat_eq_append] at slash ⊢
    obtain rfl : last = separator := by simpa using slash
    rw [List.append_assoc]
    exact after lead
  · have joined : Text.concat [d, "/", Utf8.decode name] = d ++ separator :: Utf8.decode name := by
      change d ++ separator :: (Utf8.decode name ++ []) = _
      rw [List.append_nil]
    rw [joined]
    exact after d

end Path

namespace World

variable {w : World} {p root : Path} {path : Text} {names : Location} {name : EntryName}
  {place goal : Location}

/-- Where a path starts. -/
def start (w : World) (p : Path) : Location :=
  if p.root = .relative then w.directory else []

/-- The names of a path lead to a place, however many links are on the way. -/
def Leads (w : World) (p : Path) (place : Location) : Prop :=
  Route w.tree (w.start p) (p.names.map Encoding.nameBytes) place

theorem leads_below_concat (leads : w.Leads (root.below names) place) :
    w.Leads (root.below (names ++ [name])) goal ↔ Route w.tree place [name] goal := by
  unfold Leads at *
  rw [map_nameBytes_below] at *
  rw [← List.append_assoc, route_append_iff]
  refine ⟨fun ⟨middle, first, second⟩ => ?_, fun route => ⟨place, leads, route⟩⟩
  cases first.unique leads
  exact second

/-- The way that a text tells leads to a directory as its path does. -/
theorem route_iff_leads (directory : w.tree.get? place = some .directory) :
    Route w.tree (pathStart w.directory (Encoding.nameBytes path))
      (pathNames (Encoding.nameBytes path)) place ↔ w.Leads (Path.ofText path) place := by
  rw [Path.pathStart_nameBytes, ← route_without_dots_iff directory, filter_pathNames]
  rfl

theorem leads_of_find (finds : w.find path = .ok ⟨place, some .directory⟩) :
    w.Leads (Path.ofText path) place :=
  (route_iff_leads (entry_of_find finds).symm).mp
    (route_of_followLinks (find_eq_ok_iff.mp finds).2.2)

/-- The limits of a world are high enough for a path, and for the way to its last name. -/
structure Ample (w : World) (path : Text) : Prop where
  short : (Encoding.nameBytes path).length ≤ w.limits.path
  whole : Settled w.tree w.limits.name w.limits.links
    (pathStart w.directory (Encoding.nameBytes path)) (pathNames (Encoding.nameBytes path))
  around : Settled w.tree w.limits.name w.limits.links
    (pathStart w.directory (Encoding.nameBytes path)) (pathNames (Encoding.nameBytes path)).dropLast

/-- Limits that are high enough are ample for a path. -/
theorem eventually_ample (fits : w.tree.Fits w.limits.name) (path : Text) : ∀ᶠ bound in atTop,
    ∀ limits : PathLimits, limits.name = w.limits.name → bound ≤ limits.links →
      bound ≤ limits.path → Ample { w with limits } path := by
  obtain ⟨links, settled⟩ := eventually_atTop.mp ((eventually_settled fits
    (pathStart w.directory (Encoding.nameBytes path)) (pathNames (Encoding.nameBytes path))).and
    (eventually_settled fits (pathStart w.directory (Encoding.nameBytes path))
      (pathNames (Encoding.nameBytes path)).dropLast))
  refine eventually_atTop.mpr ⟨max links (Encoding.nameBytes path).length,
    fun bound high limits same enough long => ?_⟩
  obtain ⟨manyLinks, manyBytes⟩ := max_le_iff.mp high
  have both := settled limits.links (manyLinks.trans enough)
  rw [← same] at both
  exact ⟨manyBytes.trans long, both.1, both.2⟩

theorem find_eq_followLinks (written : path ≠ [])
    (short : (Encoding.nameBytes path).length ≤ w.limits.path) (followLast : Bool) :
    w.find path followLast = w.tree.followLinks w.limits.name followLast w.limits.links
      (pathStart w.directory (Encoding.nameBytes path))
      (pathNames (Encoding.nameBytes path)) := by
  unfold find resolve
  rw [if_neg (by simpa [nameBytes_eq_nil_iff] using written), if_neg (Nat.not_lt.mpr short)]

/-- A path that leads nowhere leads to something absent, unless it or a name on the way is too
long. -/
theorem find_error_cases {errno : Errno} (stuck : w.find path = .error errno) :
    meansAbsent errno = true ∨ errno = .nameTooLong := by
  by_cases written : path = []
  · subst written
    cases stuck
    exact .inl rfl
  · by_cases short : (Encoding.nameBytes path).length ≤ w.limits.path
    · rw [find_eq_followLinks written short] at stuck
      exact (error_of_followLinks stuck).imp_right And.left
    · unfold find resolve at stuck
      rw [if_neg (by simpa [nameBytes_eq_nil_iff] using written), if_pos (not_le.mp short)] at stuck
      cases stuck
      exact .inr rfl

/-- In an ample world a path leads to a directory if its names do. -/
theorem Ample.find_directory (ample : w.Ample path) (written : path ≠ [])
    (leads : w.Leads (Path.ofText path) place) (directory : w.tree.get? place = some .directory) :
    w.find path = .ok ⟨place, some .directory⟩ := by
  rw [find_eq_followLinks written ample.short, ← directory]
  exact ample.whole.leads place ((route_iff_leads directory).mpr leads) (by rw [directory]; rfl)

/-- The names of a written path are found as they are. -/
theorem Ample.find_text (ample : w.Ample p.text) (clean : p.Clean) (named : p.names ≠ []) :
    (∀ goal e, w.find p.text = .ok ⟨goal, some e⟩ ↔
      w.Leads p goal ∧ w.tree.get? goal = some e) ∧
      (w.find p.text = .error .nameTooLong ↔
        Overlong w.tree w.limits.name (w.start p) (p.names.map Encoding.nameBytes)) := by
  have starts : pathStart w.directory (Encoding.nameBytes p.text) = w.start p := by
    have read := congrArg Path.root (Path.ofText_text clean)
    rw [Path.pathStart_nameBytes, start, ← read]
    rfl
  have found := find_eq_followLinks (p.text_ne_nil clean) ample.short true
  have settled := ample.whole
  rw [starts, Path.pathNames_text clean named] at found settled
  rw [found]
  refine ⟨fun goal e => ⟨fun leads => ?_, fun leads => ?_⟩, fun stuck => ?_, settled.stumbles⟩
  · exact ⟨route_of_followLinks leads, (entry_of_followLinks leads).symm⟩
  · rw [settled.leads goal leads.1 (by rw [leads.2]; rfl), leads.2]
  · exact (error_of_followLinks stuck).elim (fun absent => by cases absent) And.right

section Entries

variable (fits : w.tree.Fits w.limits.name) (clean : root.Clean)
  (valid : ∀ part ∈ names ++ [name], IsEntryName part)
  (leads : w.Leads (root.below names) place) (directory : w.tree.get? place = some .directory)

include fits clean valid leads directory

/-- What is found at an entry of a directory is what its name leads to there. -/
theorem Ample.find_entry (ample : w.Ample (root.below (names ++ [name])).text) :
    (∀ goal e, w.find (root.below (names ++ [name])).text = .ok ⟨goal, some e⟩ ↔
      Route w.tree place [name] goal ∧ w.tree.get? goal = some e) ∧
      (w.find (root.below (names ++ [name])).text = .error .nameTooLong ↔
        Overlong w.tree w.limits.name place [name]) := by
  have named : (root.below (names ++ [name])).names ≠ [] := by simp [Path.below]
  have found := ample.find_text (clean.below valid) named
  refine ⟨fun goal e => ?_, ?_⟩
  · rw [found.1, leads_below_concat leads]
  · have same : w.start (root.below (names ++ [name])) = w.start (root.below names) := rfl
    rw [found.2, same, map_nameBytes_below, ← List.append_assoc, ← map_nameBytes_below]
    have short := Route.not_overlong fits leads (by rw [directory]; rfl)
    rw [Route.overlong_append leads]
    exact or_iff_right short

/-- What stands at an entry of a directory is found if the last link is not followed. -/
theorem Ample.find_unfollowed (ample : w.Ample (root.directoryText (names ++ [name])))
    (present : (w.tree.get? (place ++ [name])).isSome) :
    w.find (root.directoryText (names ++ [name])) false =
      .ok ⟨place ++ [name], w.tree.get? (place ++ [name])⟩ := by
  have written := Path.directoryText_ne_nil clean (names ++ [name])
  have last : IsEntryName name := valid name (by simp)
  have read := Path.ofText_directoryText clean valid
  obtain ⟨front, cut⟩ := Path.pathNames_join (Path.directoryText_ne_nil clean names) last
  rw [← Path.directoryText_concat] at cut
  have dots := filter_pathNames (root.directoryText (names ++ [name]))
  rw [cut, read, map_nameBytes_below, List.filter_append, ← List.append_assoc,
    List.filter_cons_of_pos (by simpa using last.proper.1), List.filter_nil] at dots
  have settled := ample.around
  have starts : pathStart w.directory (Encoding.nameBytes (root.directoryText (names ++ [name]))) =
      w.start (root.below names) := by
    rw [Path.pathStart_nameBytes]
    exact congrArg (fun p : Path => if p.root = .relative then w.directory else []) read
  rw [find_eq_followLinks written ample.short, cut]
  rw [cut, List.dropLast_concat, starts] at settled
  rw [starts]
  refine followLinks_append_of_directory last.proper (fits.names place name present) ?_
  rw [settled.leads place ?_ (by rw [directory]; rfl), directory]
  rw [← route_without_dots_iff directory, List.append_cancel_right dots, ← map_nameBytes_below]
  exact leads

end Entries

end World

/-- A question is refused only if a path or a name is too long. -/
theorem FileSystem.Refuses.tooLong {w : World} {path : Text} {failure : Failure}
    (refuses : Refuses w path failure) :
    w.find path = .error .nameTooLong ∧ failure = failed path .nameTooLong := by
  obtain ⟨errno, rfl, -, stuck, tells⟩ := refuses
  obtain rfl := (World.find_error_cases stuck).resolve_left (by simp [tells])
  exact ⟨stuck, rfl⟩

end Renewal
