import Renewal.Proofs.SaveProgress
import Renewal.Proofs.ServerRules
import Renewal.Proofs.UndoHistory

/-! # Bytes that an update keeps

A text that was read from some bytes can be written again, whether the bytes were valid or not, and
gives them back. Not every text is one that can be read: two bytes of no character that an edit
brings together may make up one. An update does not do so. What it takes begins and ends with code
points of ASCII, what it writes is made of such, and a text with such a code point in it can be read
if what comes before and after it can. So the updated text is read from the bytes that it is written
as, and these are the old bytes but for the calls that were replaced.
-/

namespace Renewal

open Sweep

namespace Encoding

variable {e : Encoding} {c : CodePoint} {s t : Text}

/-- The bytes of a text of which each code point can be written. -/
def written (e : Encoding) (t : Text) : Bytes :=
  t.flatMap fun c => (e.encodeOne c).getD []

/-- Each code point of a text can be written. -/
def CanWrite (e : Encoding) (t : Text) : Prop :=
  ∀ c ∈ t, (e.encodeOne c).isSome = true

/-- A text is read from some bytes. -/
def Readable (e : Encoding) (t : Text) : Prop :=
  ∃ bytes, e.decode bytes = t

theorem written_cons {bytes : Bytes} (encoded : e.encodeOne c = some bytes) (t : Text) :
    e.written (c :: t) = bytes ++ e.written t := by
  rw [written, List.flatMap_cons, encoded]
  rfl

theorem written_append (s t : Text) : e.written (s ++ t) = e.written s ++ e.written t :=
  List.flatMap_append

theorem written_flatMap {α : Type} (f : α → Text) (as : List α) :
    e.written (as.flatMap f) = as.flatMap fun a => e.written (f a) :=
  List.flatMap_assoc

theorem encodeFrom_eq (can : e.CanWrite t) (position : Nat) :
    e.encodeFrom position t = .ok (e.written t) := by
  induction t generalizing position with
  | nil => rfl
  | cons c rest ih =>
    obtain ⟨bytes, here⟩ := Option.isSome_iff_exists.mp (can c List.mem_cons_self)
    have later := ih (fun d member => can d (List.mem_cons_of_mem c member)) (position + 1)
    rw [encodeFrom, here, written_cons here]
    dsimp only
    rw [later]
    rfl

theorem encode_eq (plain : e ≠ .utf8Signature) (can : e.CanWrite t) :
    e.encode t = .ok (e.written t) := by
  cases e with
  | utf8Signature => exact absurd rfl plain
  | utf8 | latin1 | ascii => exact encodeFrom_eq can 0

theorem encodeOne_ne_nil (e : Encoding) (c : CodePoint) : e.encodeOne c ≠ some [] := by
  have utf8 : Utf8.encodeOne c ≠ some [] := by
    intro nothing
    apply codeBytes_ne_nil c
    rw [codeBytes, nothing]
    rfl
  cases e with
  | utf8 | utf8Signature => exact utf8
  | latin1 | ascii =>
    rw [encodeOne]
    split <;> simp

/-- A text that can be written is told from those that it begins with by its bytes. -/
theorem eq_of_isPrefix (begins : s <+: t) (can : e.CanWrite t) (same : e.written t = e.written s) :
    s = t := by
  obtain ⟨rest, rfl⟩ := begins
  cases rest with
  | nil => rw [List.append_nil]
  | cons c rest =>
    obtain ⟨bytes, here⟩ := Option.isSome_iff_exists.mp (can c (by simp))
    rw [written_append, written_cons here, List.append_right_eq_self,
      List.append_eq_nil_iff] at same
    rw [same.1] at here
    exact absurd here (encodeOne_ne_nil e c)

theorem code_ofNat_toNat (b : UInt8) : (CodePoint.ofNat b.toNat).code = b.toNat := by
  have small : b.toNat < 0x110000 := by
    have := b.toNat_lt
    omega
  rw [CodePoint.ofNat, dif_pos small]

theorem encodeOne_latin1 (b : UInt8) : latin1.encodeOne (.ofNat b.toNat) = some [b] := by
  have small : b.toNat < 0x100 := b.toNat_lt
  rw [encodeOne, code_ofNat_toNat, if_pos small, UInt8.ofNat_toNat]

theorem encodeOne_ascii (b : UInt8) :
    ascii.encodeOne (if b < 0x80 then .ofNat b.toNat else .strayByte b) = some [b] := by
  by_cases small : b < 0x80
  · have low : b.toNat < 0x80 := UInt8.lt_iff_toNat_lt.mp small
    rw [if_pos small, encodeOne, code_ofNat_toNat, if_pos low, UInt8.ofNat_toNat]
  · have high : 0x80 ≤ b.toNat :=
      Nat.le_of_not_lt fun less => small (UInt8.lt_iff_toNat_lt.mpr less)
    have stray : ¬(CodePoint.strayByte b).code < 0x80 := by
      change ¬0xDC00 + b.toNat < 0x80
      omega
    rw [if_neg small, encodeOne, if_neg stray, Utf8.byte?_strayByte high]
    rfl

/-- Whatever has been read can be written. -/
theorem canWrite_decode (plain : e ≠ .utf8Signature) (bytes : Bytes) :
    e.CanWrite (e.decode bytes) := by
  intro c member
  cases e with
  | utf8Signature => exact absurd rfl plain
  | utf8 => exact Utf8.isSome_encodeOne_of_mem member
  | latin1 =>
    obtain ⟨b, -, rfl⟩ := List.mem_map.mp member
    rw [encodeOne_latin1]
    rfl
  | ascii =>
    obtain ⟨b, -, rfl⟩ := List.mem_map.mp member
    rw [encodeOne_ascii]
    rfl

/-- Whatever has been read is written as the bytes that it was read from. -/
theorem written_decode (plain : e ≠ .utf8Signature) (bytes : Bytes) :
    e.written (e.decode bytes) = bytes := by
  cases e with
  | utf8Signature => exact absurd rfl plain
  | utf8 =>
    refine Eq.trans (List.flatMap_congr ?_) (nameBytes_decode bytes)
    intro c member
    obtain ⟨own, encoded⟩ := Option.isSome_iff_exists.mp (Utf8.isSome_encodeOne_of_mem member)
    rw [encodeOne, encoded]
    rfl
  | latin1 =>
    rw [written, decode, List.flatMap_map]
    simp only [encodeOne_latin1, Option.getD_some, List.flatMap_singleton']
  | ascii =>
    rw [written, decode, List.flatMap_map]
    simp only [encodeOne_ascii, Option.getD_some, List.flatMap_singleton']

theorem encode_decode (plain : e ≠ .utf8Signature) (bytes : Bytes) :
    e.encode (e.decode bytes) = .ok bytes := by
  rw [encode_eq plain (canWrite_decode plain bytes), written_decode plain]

section Ascii

variable (small : c.code < 0x80)
include small

theorem toNat_ofNat_of_ascii : (UInt8.ofNat c.code).toNat = c.code :=
  Utf8.toNat_ofNat_of_lt (by omega)

theorem ofNat_toNat_of_ascii : CodePoint.ofNat (UInt8.ofNat c.code).toNat = c := by
  rw [toNat_ofNat_of_ascii small, CodePoint.ofNat, dif_pos c.code_lt]

theorem encodeOne_of_ascii (e : Encoding) : e.encodeOne c = some [.ofNat c.code] := by
  have utf8 : Utf8.encodeOne c = some [.ofNat c.code] := by
    have scalar : c.isSurrogate = false := by
      simp [CodePoint.isSurrogate]
      omega
    simp [Utf8.encodeOne, scalar, Utf8.bytesOf, small]
  cases e with
  | utf8 | utf8Signature => exact utf8
  | latin1 => rw [encodeOne, if_pos (by omega)]
  | ascii => rw [encodeOne, if_pos small]

/-- A code point of ASCII is read alone, whatever bytes stand around it. -/
theorem decode_split (plain : e ≠ .utf8Signature) (bytes more : Bytes) :
    e.decode (bytes ++ .ofNat c.code :: more) = e.decode bytes ++ c :: e.decode more := by
  have value := toNat_ofNat_of_ascii small
  have back := ofNat_toNat_of_ascii small
  have low : UInt8.ofNat c.code < 0x80 := by
    rw [UInt8.lt_iff_toNat_lt, value]
    exact small
  cases e with
  | utf8Signature => exact absurd rfl plain
  | utf8 =>
    have leads : Utf8.front (.ofNat c.code) more = .character c 0 := by
      rw [Utf8.front.eq_def, if_pos low, back]
    rw [decode, Utf8.decode_append bytes (Utf8.isTail_of_start (.inl (value.trans_lt small))),
      Utf8.decode_cons_character leads]
    rfl
  | latin1 => rw [decode, List.map_append, List.map_cons, back]; rfl
  | ascii => rw [decode, List.map_append, List.map_cons, if_pos low, back]; rfl

/-- A text with a code point of ASCII in it can be read if what comes before and after it can. -/
theorem readable_split (plain : e ≠ .utf8Signature) :
    e.Readable (s ++ c :: t) ↔ e.Readable s ∧ e.Readable t := by
  constructor
  · rintro ⟨bytes, reads⟩
    have cut := written_decode plain bytes
    rw [reads, written_append, written_cons (encodeOne_of_ascii small e)] at cut
    have both : e.decode (e.written s) ++ c :: e.decode (e.written t) = s ++ c :: t := by
      rw [← reads, ← cut]
      exact (decode_split small plain _ _).symm
    -- Two beginnings of one text that are written as the same bytes are the same.
    have before : e.decode (e.written s) = s := by
      have again := written_decode plain (e.written s)
      have canRead := canWrite_decode plain (e.written s)
      have can : e.CanWrite s := fun d member =>
        canWrite_decode plain bytes d (reads ▸ List.mem_append_left _ member)
      rcases List.prefix_or_prefix_of_prefix ⟨_, both⟩ (List.prefix_append s (c :: t))
        with shorter | longer
      · exact eq_of_isPrefix shorter can again.symm
      · exact (eq_of_isPrefix longer canRead again).symm
    rw [before] at both
    exact ⟨⟨_, before⟩, ⟨_, (List.cons.inj (List.append_cancel_left both)).2⟩⟩
  · rintro ⟨⟨bytes, rfl⟩, ⟨more, rfl⟩⟩
    exact ⟨_, decode_split small plain bytes more⟩

end Ascii

/-- Code points of ASCII do not matter to whether what follows them can be read. -/
theorem readable_append_of_ascii {m : Text} (plain : e ≠ .utf8Signature)
    (small : ∀ c ∈ m, c.code < 0x80) : e.Readable (m ++ t) ↔ e.Readable t := by
  have nothing : e.Readable [] := by
    refine ⟨[], ?_⟩
    cases e <;> rfl
  induction m with
  | nil => rfl
  | cons c m ih =>
    have later := ih fun d member => small d (List.mem_cons_of_mem c member)
    refine Iff.trans ?_ later
    exact (readable_split (s := []) (small c List.mem_cons_self) plain).trans
      (and_iff_right nothing)

end Encoding

namespace Sweep

variable {ι : Type} {hits : ι → Text → Option Hit} {rules : List ι} {among : Set ι}

/-- What a part was. -/
def Part.input : Part ι → Text
  | .kept c => [c]
  | .changed _ h => h.taken

/-- The parts of a text make up the text. -/
theorem Orderly.flatMap_input (orderly : Orderly hits among) (inside : ∀ r ∈ rules, r ∈ among)
    (t : Text) : (parts hits rules t).flatMap Part.input = t := by
  induction t using orderly.pass_induction inside with
  | nil => rfl
  | kept c rest found ih =>
    rw [parts_kept found, List.flatMap_cons, ih]
    rfl
  | changed r h x written found ih =>
    rw [parts_changed written found, List.flatMap_cons, ih]
    rfl

end Sweep

namespace RuleSet

variable {r : Rule} {t : Text} {h : Hit} {e : Encoding}

theorem code_lt_of_mem : ∀ r ∈ serverRules,
    ∀ c ∈ r.phrase.first ++ r.phrase.second ++ r.replacement, c.code < 0x80 := by
  decide +kernel

/-- What a rule takes ends with a code point of ASCII. White space inside of it may be of any
kind. -/
theorem getLast?_taken (member : r ∈ serverRules) (takes : r.hit? t = some h) :
    ∃ c, h.taken.getLast? = some c ∧ c.code < 0x80 := by
  by_cases permission : r = permissionRule
  · subst permission
    obtain ⟨call, -, valid, -, -, rfl⟩ := hit?_permissionRule.mp takes
    obtain ⟨c, last, digit⟩ := PermissionCall.getLast?_text valid
    have codes := PermissionCall.code_of_modeDigits digit
    exact ⟨c, last, by omega⟩
  · obtain ⟨gap, -, -, isGap, -, rfl⟩ := (hit?_of_ne member permission).mp takes
    obtain ⟨c, among, last⟩ := Phrase.getLast?_withGap (tame r member).proper isGap
    exact ⟨c, last, code_lt_of_mem r member c (List.mem_append_left _ among)⟩

/-- What a rule writes is made of code points of ASCII. -/
theorem code_lt_of_mem_output (member : r ∈ serverRules) (takes : r.hit? t = some h) :
    ∀ c ∈ h.output, c.code < 0x80 := by
  intro c among
  by_cases permission : r = permissionRule
  · subst permission
    obtain ⟨call, -, valid, -, -, rfl⟩ := hit?_permissionRule.mp takes
    have words : ∀ c ∈ ("file attributes " ++ " -permissions " : Text), c.code < 0x80 := by decide
    simp only [PermissionCall.output, List.mem_append] at among words
    rcases among with word | file | word | mode
    · exact words c (.inl word)
    · have codes := PermissionCall.code_of_fileLetters (valid.file.2 c file)
      omega
    · exact words c (.inr word)
    · have codes := PermissionCall.code_of_modeDigits (valid.mode.2 c mode)
      omega
  · obtain ⟨gap, -, -, -, -, rfl⟩ := (hit?_of_ne member permission).mp takes
    exact code_lt_of_mem r member c (List.mem_append_right _ among)

/-- An update leads from texts that can be read to such texts. -/
theorem readable_sweep (plain : e ≠ .utf8Signature) (readable : e.Readable t) :
    e.Readable (sweep Rule.hit? serverRules t) := by
  induction size : t.length using Nat.strong_induction_on generalizing t with
  | _ size ih =>
    subst size
    obtain ⟨u, x, rfl, kept, next⟩ := Orderly.exists_stretch Rule.hit? serverRules t
    rw [kept]
    rcases next with rfl | ⟨r, h, found⟩
    · exact readable
    · obtain ⟨member, takes⟩ := first?_eq_some found
      have before : e.Readable u := by
        obtain ⟨rest, cut⟩ := starts_of_hit member takes
        rw [← cut] at readable
        exact ((Encoding.readable_split (c := 'n') (by decide) plain).mp readable).1
      obtain ⟨written, z, rfl⟩ := taken_isPrefix member takes
      have after : e.Readable z := by
        obtain ⟨c, last, low⟩ := getLast?_taken member takes
        obtain ⟨front, ends⟩ := List.getLast?_eq_some_iff.mp last
        rw [ends, List.append_assoc, ← List.append_assoc] at readable
        exact ((Encoding.readable_split low plain).mp readable).2
      have shorter : z.length < (u ++ (h.taken ++ z)).length := by
        have := List.length_pos_of_ne_nil written
        rw [List.length_append, List.length_append]
        omega
      have low := code_lt_of_mem_output member takes
      obtain ⟨c, rest, output⟩ : ∃ c rest, h.output = c :: rest := by
        apply List.exists_cons_of_ne_nil
        intro nothing
        have begins := (orderly.begins member takes).2
        rw [nothing] at begins
        cases begins
      rw [sweep_changed written found, output, List.cons_append]
      rw [output] at low
      refine (Encoding.readable_split (low c List.mem_cons_self) plain).mpr ⟨before, ?_⟩
      have later : ∀ d ∈ rest, d.code < 0x80 := fun d among => low d (List.mem_cons_of_mem c among)
      exact (Encoding.readable_append_of_ascii plain later).mpr (ih _ shorter after rfl)

end RuleSet

/-- How some bytes come from others: code points are written as they were read, and calls that rules
have taken are replaced by what the rules write. -/
structure Encoding.Replaced (e : Encoding) (rules : List Rule) (old new : Bytes)
    (ps : List (Sweep.Part Rule)) : Prop where
  before : old = ps.flatMap fun p => e.written p.input
  after : new = ps.flatMap fun p => e.written p.output
  calls : ∀ r h, .changed r h ∈ ps → r ∈ rules ∧ ∃ x, x <:+ e.decode old ∧ r.hit? x = some h

theorem RuleSet.replaced (e : Encoding) (plain : e ≠ .utf8Signature) (bytes : Bytes) :
    e.Replaced serverRules bytes (e.written (sweep Rule.hit? serverRules (e.decode bytes)))
      (parts Rule.hit? serverRules (e.decode bytes)) where
  before := by
    have whole : (parts Rule.hit? serverRules (e.decode bytes)).flatMap Sweep.Part.input =
        e.decode bytes :=
      orderly.flatMap_input (fun _ => id) (e.decode bytes)
    rw [← Encoding.written_flatMap, whole, Encoding.written_decode plain]
  after := Encoding.written_flatMap _ _
  calls := by
    intro r h member
    obtain ⟨x, suffix, found⟩ := exists_of_changed_mem member
    obtain ⟨tried, takes⟩ := first?_eq_some found
    exact ⟨tried, x, suffix, takes⟩

namespace Backup

open FileSystem Renewal.Tree World

variable {w : World} {path backup : Path} {text other name : Text} {e : Encoding}
  {place : Location} {bytes new : Bytes} {mode : Nat}

/-- A save of a text returns and leaves a file with given bytes and mode. -/
def SavesAs (w : World) (path : Path) (text encoding : Text) (bytes : Bytes) (mode : Nat) : Prop :=
  (save path text defaultSuffix encoding).Ensures w
    (fun _ v => ∃ place, v.find path.text false = .ok ⟨place, some (.file bytes mode)⟩)
    (fun _ _ => False)

/-- Where some text can be saved, so can any that can be written. -/
theorem savesAs_of_encode (calm : w.Calm) (closed : w.tree.Closed)
    (leads : Leads w path.text place (.file bytes mode))
    (ready : Ready w path backup other defaultSuffix name)
    (known : Encoding.ofName? name = some e) (encoded : e.encode text = .ok new) :
    SavesAs w path text name new mode := by
  have readyToo : Ready w path backup text defaultSuffix name :=
    { ready with encodes := ⟨new, (writes_iff known).mpr encoded⟩ }
  refine ((save_ensures closed (sees_of_faultless calm.faultless) path text defaultSuffix name).and
    (save_returns calm closed readyToo)).mono ?_ fun _ _ raised => raised.2
  rintro _ v ⟨⟨-, copyPlace, place, data, written, mode', saved⟩, -⟩
  obtain ⟨target, led⟩ := saved.leads
  cases leads.finds.symm.trans led
  cases encoded.symm.trans ((writes_iff known).mp saved.writes)
  exact ⟨place, saved.anew⟩

end Backup

open FileSystem Backup World

/-- Bytes that are read as a text and written again are the same bytes, in each encoding without a
signature. The update of a text that has been read can be written, and what is written is read as
that text and differs from the old bytes just in the calls that were replaced. So it is with files:
where any text can be saved, the one that was read can be, and its update. -/
theorem update_keeps_bytes {name : Text} {e : Encoding} (known : Encoding.ofName? name = some e)
    (plain : e ≠ .utf8Signature) (bytes : Bytes) :
    e.encode (e.decode bytes) = .ok bytes ∧
    ∃ u new ps, update RuleSet.server.rules (e.decode bytes) = .ok u ∧
      e.encode u.text = .ok new ∧ e.decode new = u.text ∧
      e.Replaced RuleSet.server.rules bytes new ps ∧ changes ps = u.changes ∧
      ∀ (w : World) (path backup : Path) (other : Text) (place : Location) (mode : Nat),
        w.Calm → w.tree.Closed → Leads w path.text place (.file bytes mode) →
        Ready w path backup other defaultSuffix name →
        (readText path.text name).Ensures w (fun t _ => t = e.decode bytes) (fun _ _ => False) ∧
        SavesAs w path (e.decode bytes) name bytes mode ∧ SavesAs w path u.text name new mode := by
  have same := Encoding.encode_decode plain bytes
  obtain ⟨new, reads⟩ := RuleSet.readable_sweep plain ⟨bytes, rfl⟩
  have encoded := Encoding.encode_decode plain new
  have written := Encoding.written_decode plain new
  have replaced := RuleSet.replaced e plain bytes
  rw [reads] at encoded written
  rw [written] at replaced
  refine ⟨same, _, new, _, RuleSet.update_server _, encoded, reads, replaced,
    (Updated.changes_ofPass RuleSet.nodup_serverRules _).symm, ?_⟩
  intro w path backup other place mode calm closed leads ready
  refine ⟨?_, savesAs_of_encode calm closed leads ready known same,
    savesAs_of_encode calm closed leads ready known encoded⟩
  refine (readText_ensures w path.text name).mono ?_ fun _ _ ⟨_, cannot⟩ =>
    cannot ⟨calm.faultless, ready.passable, e.toCodec, place, bytes, mode, _,
      codec?_of_known known, leads, rfl⟩
  rintro t v ⟨-, codec, found, entry, listed, finds, reads⟩
  cases leads.finds.symm.trans finds
  cases (codec?_of_known known).symm.trans listed
  exact (Except.ok.inj (reads bytes mode rfl)).symm

/-- The bytes of one character with a command between them. -/
def parted : Bytes :=
  [0xE2, 0x82, 110, 115, 95, 99, 112, 0xAC, 13, 10]

/-- A directory with a file `a` of these bytes. -/
def lonePart : World where
  tree := ⟨[([[97]], .file parted 0o640)]⟩
  draws := fun _ _ => "XXXXXXXX"

/-- The bytes around the command are kept, and do not come together. -/
theorem update_keeps_bytes_parted :
    Encoding.ofName? "utf-8" = some .utf8 ∧
    Encoding.utf8.encode (Encoding.utf8.decode parted) = .ok parted ∧
    ∃ u new, update RuleSet.server.rules (Encoding.utf8.decode parted) = .ok u ∧
      Encoding.utf8.encode u.text = .ok new ∧ Encoding.utf8.decode new = u.text ∧
      SavesAs lonePart (Path.ofText "/a") (Encoding.utf8.decode parted) "utf-8" parted 0o640 ∧
      SavesAs lonePart (Path.ofText "/a") u.text "utf-8" new 0o640 := by
  have known : Encoding.ofName? "utf-8" = some .utf8 := by decide +kernel
  have calm : lonePart.Calm :=
    calm_of_drawn rfl (fun _ => rfl) (fun _ _ => rfl) (by decide +kernel)
  have closed : lonePart.tree.Closed := Tree.closed_of_entries (by decide)
  have finds : lonePart.find (Path.ofText "/a").text = .ok ⟨[[97]], some (.file parted 0o640)⟩ := by
    decide +kernel
  have ends :
      ((save (Path.ofText "/a") "" defaultSuffix "utf-8").returned? lonePart).isSome = true := by
    decide +kernel
  obtain ⟨same, u, new, -, updates, encoded, reads, -, -, saves⟩ :=
    update_keeps_bytes known (by decide) parted
  refine ⟨known, same, u, new, updates, encoded, reads, ?_⟩
  generalize lonePart = w at calm closed finds ends ⊢
  obtain ⟨p, returned⟩ := Option.isSome_iff_exists.mp ends
  have ready := ready_of_save closed (sees_of_faultless calm.faultless) calm.lettered
    (Action.run_of_returned? returned)
  exact (saves w _ p.1 "" _ _ calm closed ⟨by decide, finds⟩ ready).2

end Renewal
