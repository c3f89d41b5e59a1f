import TarHeader.Entry.Change
import TarHeader.Entry.File
import TarHeader.Proofs.Entry.Acceptance
import TarHeader.Proofs.Entry.Merge
import TarHeader.Proofs.PathStyle

/- Where the name of an entry is from. A name given to an entry, when it is made or later, is turned
   into the form of archives. A name that is in an archive already is taken as it stands: what a
   header states, the prefix joined and a directory's slash included, or what an extended header has
   for a sparse file. So after any history the name is the one that was taken last, or is normalized
   if one was given since (`name_after_history`). -/
namespace TarHeader

namespace Record

/-- The text of the name field, with the slash that POSIX and old headers give to a directory. For
    an entry that is bound to a file `bound` says whether it is one. -/
def slashedName (r : Record) (bound : Option Bool) (name : Text) : Text :=
  match Format.detect r with
  | .oldGnu | .xstar => name
  | .posix | .legacy =>
    if bound.getD (r.readOctet Layout.typeFlag == TypeFlag.directory.octet) then withSlash name
    else name

/-- The name that a header states. -/
def statedName (r : Record) (bound : Option Bool) (cs : Charset) : Except Fault Text := do
  let before ← r.readPrefix cs
  let name ← r.readText cs Layout.name
  return joinName before (r.slashedName bound name)

end Record

namespace Attributes

variable {cs : Charset} {bound : Option Bool} {r : Record} {a b : Attributes}

theorem slashedName_eq (hb : SharedOf cs r b)
    (hformat : Format.detect r = .posix ∨ Format.detect r = .legacy) :
    r.slashedName bound b.name =
      if bound.getD b.describesDirectory then withSlash b.name else b.name := by
  cases bound with
  | some isDirectory =>
    unfold Record.slashedName
    rcases hformat with hformat | hformat <;> rw [hformat] <;> rfl
  | none =>
    calc r.slashedName none b.name = r.namePart b.name := rfl
      _ = b.slashed := namePart_eq hb hformat
      _ = if b.describesDirectory then withSlash b.name else b.name := (slashed_eq b).symm

theorem name_of_readTail (hb : SharedOf cs r b) (h : readTail cs bound r b = .ok a) :
    ∃ before, r.readPrefix cs = .ok before ∧
      a.name = joinName before (r.slashedName bound b.name) := by
  unfold readTail at h
  unfold Record.readPrefix Record.prefixField?
  cases hformat : Format.detect r with
  | oldGnu =>
    rw [hformat] at h
    obtain ⟨realSize, -, h⟩ := Fault.bind_eq_ok.mp h
    cases Fault.pure_eq_ok.mp h
    exact ⟨[], rfl, by rw [joinName_nil, Record.slashedName, hformat]⟩
  | xstar =>
    rw [hformat] at h
    obtain ⟨before, hbefore, h⟩ := Fault.bind_eq_ok.mp h
    cases Fault.pure_eq_ok.mp h
    exact ⟨before, hbefore, by rw [Record.slashedName, hformat]⟩
  | posix | legacy =>
    rw [hformat] at h
    obtain ⟨before, hbefore, h⟩ := Fault.bind_eq_ok.mp h
    cases Fault.pure_eq_ok.mp h
    exact ⟨before, hbefore, by rw [slashedName_eq hb (by simp [hformat])]⟩

/-- Reading takes the name that the header states. -/
theorem statedName_of_read (h : read cs bound r = .ok a) : r.statedName bound cs = .ok a.name := by
  obtain ⟨b, hb, htail⟩ := Fault.bind_eq_ok.mp h
  have hb := readShared_eq_ok_iff.mp hb
  obtain ⟨before, hbefore, hname⟩ := name_of_readTail hb htail
  rw [Record.statedName, hbefore, hb.name, hname]
  rfl

end Attributes

namespace Entry

variable {files : FileView} {cs : Charset} {r : Record} {e e' : Entry} {last : Option Text}
  {keep : Bool} {style : PathStyle}

/-! Names taken as they stand -/

/-- The name that a header states for an entry that can read it. -/
def statedName (files : FileView) (r : Record) (e : Entry) (cs : Charset) : Except Fault Text := do
  let _ ← e.readStrict files cs r
  r.statedName (e.boundDirectory files) cs

theorem statedName_eq_map :
    e.statedName files r cs = (e.readStrict files cs r).map (·.name) := by
  unfold statedName
  cases hread : e.readStrict files cs r with
  | error fault => rfl
  | ok e' =>
    obtain ⟨a, ha, h⟩ := Fault.bind_eq_ok.mp hread
    cases Fault.pure_eq_ok.mp h
    exact Attributes.statedName_of_read ha

theorem orFallback_statedName :
    cs.orFallback (e.statedName files r) = (e.read files cs r).map (·.name) := by
  rw [read, ← Charset.orFallback_map]
  congr 1
  funext cs
  exact statedName_eq_map

/-- The name that a change takes as it stands. One that is refused takes none. -/
def Change.taken? (files : FileView) (e : Entry) : Change → Option Text
  | .header cs r => (cs.orFallback (e.statedName files r)).toOption
  | .headerStrict cs r => (e.statedName files r cs).toOption
  | .sparse dialect keys =>
    match mergeSparse dialect keys e with
    | .ok _ _ => dialect.name? keys
    | .error _ _ => none
  | _ => none

/-- The name that was taken last, if none was given since. -/
def Change.lastTaken (files : FileView) (e : Entry) (last : Option Text) : Change → Option Text
  | .name _ => none
  | c => (c.taken? files e).or last

/-- Changes, each with the files there are at its time. -/
abbrev History := List (FileView × Change)

namespace History

/-- The entry after all changes. -/
def run : History → Entry → Entry
  | [], e => e
  | (files, c) :: later, e => run later (Edit.after (c.run files) e)

/-- The name that was taken last, where `last` was the last before. -/
def taken : History → Entry → Option Text → Option Text
  | [], _, last => last
  | (files, c) :: later, e, last =>
    taken later (Edit.after (c.run files) e) (c.lastTaken files e last)

end History

/-- Entries as they are made, with the name that was taken in place of one given to the entry. The
    name of a directory that comes to nothing is the slash it ends in. -/
inductive Made : Entry → Option Text → Prop where
  | ofName (now : Instant) (name : Text) (keepLeading : Bool) (style : PathStyle) :
      Made (ofName now name keepLeading style) none
  | ofNameAndFlag (now : Instant) (name : Text) (flag : UInt8) (keepLeading : Bool) :
      Made (ofNameAndFlag now name flag keepLeading) none
  | ofFileNamed {files : FileView} {path name : Text} {e : Entry}
      (h : ofFileNamed files path name = .ok e) :
      Made e (if e.name = ['/'] then some e.name else none)
  | ofRecord {cs : Charset} {r : Record} {e : Entry} (h : ofRecord cs r = .ok e) :
      Made e ((Change.header cs r).taken? .empty {})

/-! What one change does to the name -/

/-- An entry that normalizes names by the given rules, under the name that was taken last, or under
    a normalized one. -/
structure Named (keep : Bool) (style : PathStyle) (last : Option Text) (e : Entry) : Prop where
  keepLeading : e.keepLeading = keep
  pathStyle : e.pathStyle = style
  taken : ∀ t, last = some t → e.name = t
  given : last = none → style.Normalized keep e.name

theorem named_of_normalized (h : e.pathStyle.Normalized e.keepLeading e.name) :
    Named e.keepLeading e.pathStyle none e := ⟨rfl, rfl, nofun, fun _ => h⟩

theorem named_of_taken (e : Entry) : Named e.keepLeading e.pathStyle (some e.name) e :=
  ⟨rfl, rfl, fun _ ht => Option.some.inj ht, nofun⟩

theorem rules_of_readStrict (h : e.readStrict files cs r = .ok e') :
    e'.keepLeading = e.keepLeading ∧ e'.pathStyle = e.pathStyle := by
  obtain ⟨a, -, h⟩ := Fault.bind_eq_ok.mp h
  cases Fault.pure_eq_ok.mp h
  exact ⟨rfl, rfl⟩

theorem rules_of_read (h : e.read files cs r = .ok e') :
    e'.keepLeading = e.keepLeading ∧ e'.pathStyle = e.pathStyle := by
  rcases Charset.orFallback_eq_ok_iff.mp h with h | ⟨-, h⟩ <;> exact rules_of_readStrict h

/-- Reading, strictly or not: a new name comes with the new entry, or the old stays with the old. -/
theorem Named.of_result {x : Except Fault Entry} (h : Named keep style last e)
    (hrules : ∀ e', x = .ok e' → e'.keepLeading = e.keepLeading ∧ e'.pathStyle = e.pathStyle) :
    Named keep style ((x.map (·.name)).toOption.or last) (x.toOption.getD e) := by
  cases x with
  | error fault => exact h
  | ok e' =>
    obtain ⟨hkeep, hstyle⟩ := hrules e' rfl
    have hnamed := named_of_taken e'
    rwa [hkeep, hstyle, h.keepLeading, h.pathStyle] at hnamed

/-- A change takes a name, gives a normalized one, or leaves the name there is. -/
theorem named_run (files : FileView) (c : Change) (h : Named keep style last e) :
    Named keep style (c.lastTaken files e last) (Edit.after (c.run files) e) := by
  cases c with
  | name t =>
    refine ⟨h.keepLeading, h.pathStyle, nofun, fun _ => ?_⟩
    rw [← h.keepLeading, ← h.pathStyle]
    exact PathStyle.normalized_normalize e.pathStyle e.keepLeading t
  | header cs r =>
    have hafter : Edit.after ((Change.header cs r).run files) e =
        (e.read files cs r).toOption.getD e :=
      Edit.after_replace (fun e : Entry => e.read files cs r) e
    show Named keep style (((Change.header cs r).taken? files e).or last) _
    rw [hafter, Change.taken?, orFallback_statedName]
    exact h.of_result fun e' he' => rules_of_read he'
  | headerStrict cs r =>
    have hafter : Edit.after ((Change.headerStrict cs r).run files) e =
        (e.readStrict files cs r).toOption.getD e :=
      Edit.after_replace (fun e : Entry => e.readStrict files cs r) e
    show Named keep style (((Change.headerStrict cs r).taken? files e).or last) _
    rw [hafter, Change.taken?, statedName_eq_map]
    exact h.of_result fun e' he' => rules_of_readStrict he'
  | sparse dialect keys =>
    show Named keep style (((Change.sparse dialect keys).taken? files e).or last)
      (Edit.after (mergeSparse dialect keys) e)
    rw [Change.taken?, Edit.after]
    cases hrun : mergeSparse dialect keys e with
    | error fault e' =>
      cases atomic_mergeSparse dialect keys e fault e' hrun
      exact h
    | ok _ e' =>
      obtain ⟨realSize, paxSparse, starSparse, rfl⟩ := eq_of_mergeSparse hrun
      cases dialect.name? keys with
      | none => exact ⟨h.keepLeading, h.pathStyle, h.taken, h.given⟩
      | some t => exact ⟨h.keepLeading, h.pathStyle, fun _ ht => Option.some.inj ht, nofun⟩
  | size n | devMajor n | devMinor n =>
    apply Edit.Preserves.lift_bind _ e h
    intro m _
    exact Edit.Preserves.modify' fun e h => ⟨h.keepLeading, h.pathStyle, h.taken, h.given⟩
  | _ => exact ⟨h.keepLeading, h.pathStyle, h.taken, h.given⟩

theorem named_history (h : History) (hnamed : Named keep style last e) :
    Named keep style (h.taken e last) (h.run e) := by
  induction h generalizing e last with
  | nil => exact hnamed
  | cons step later ih => exact ih (named_run step.1 step.2 hnamed)

/-! Names of new entries -/

theorem normalized_withSlash {keepLeading : Bool} {t : Text}
    (h : PathStyle.unix.Normalized keepLeading t) (hne : withSlash t ≠ ['/']) :
    PathStyle.unix.Normalized keepLeading (withSlash t) := by
  unfold withSlash at hne ⊢
  split at hne
  · next hends =>
    rw [if_pos hends]
    exact h
  · next hends =>
    rw [if_neg hends]
    cases t with
    | nil => exact absurd rfl hne
    | cons c rest => exact ⟨h.head, fun hstyle => absurd rfl hstyle⟩

theorem Made.named (h : Made e last) : Named e.keepLeading e.pathStyle last e := by
  cases h with
  | ofName now name keepLeading style =>
    exact named_of_normalized (PathStyle.normalized_normalize style keepLeading name)
  | ofNameAndFlag now name flag keepLeading =>
    have hgiven := PathStyle.normalized_normalize .unix keepLeading name
    unfold Entry.ofNameAndFlag
    simp only
    split <;> exact named_of_normalized hgiven
  | @ofFileNamed files path name _ h =>
    split
    · exact named_of_taken e
    · next hslash =>
      have hgiven := PathStyle.normalized_normalize .unix false name
      unfold Entry.ofFileNamed at h
      obtain ⟨stat, -, h⟩ := Fault.bind_eq_ok.mp h
      simp only at h
      split at h
      · cases Fault.pure_eq_ok.mp h
        exact named_of_normalized (normalized_withSlash hgiven hslash)
      · cases Fault.pure_eq_ok.mp h
        exact named_of_normalized hgiven
  | ofRecord h =>
    rw [Change.taken?, orFallback_statedName]
    rw [Entry.ofRecord] at h
    rw [h]
    exact named_of_taken e

/-- After any history an entry normalizes names by the rules it was made with, and its name is the
    one that was taken last, if no other was given since. So it breaks the rules just if that does.
    -/
theorem name_after_history (h : History) (hmade : Made e last) :
    (h.run e).keepLeading = e.keepLeading ∧ (h.run e).pathStyle = e.pathStyle ∧
      (∀ t, h.taken e last = some t → (h.run e).name = t) ∧
      (e.pathStyle.Normalized e.keepLeading (h.run e).name ↔
        ∀ t, h.taken e last = some t → e.pathStyle.Normalized e.keepLeading t) := by
  have hnamed := named_history h hmade.named
  refine ⟨hnamed.keepLeading, hnamed.pathStyle, hnamed.taken, ?_, fun hrules => ?_⟩
  · intro hnormalized t ht
    rwa [← hnamed.taken t ht]
  · cases htaken : h.taken e last with
    | none => exact hnamed.given htaken
    | some t =>
      rw [hnamed.taken t htaken]
      exact hrules t htaken

/-- An old header whose name starts with a slash. -/
def rootedRecord : Record := Record.zero.put Layout.name [0x2F, 0x61]

/-- The name that is given after reading counts, also if a change is refused later. -/
theorem rooted_renamed : ∃ e, ofRecord .utf8 rootedRecord = .ok e ∧
    PathStyle.unix.Normalized false
      (History.run [(.empty, .name ['/', '/', 'b']), (.empty, .size (-1))] e).name := by
  obtain ⟨e, he⟩ : ∃ e, ofRecord .utf8 rootedRecord = .ok e :=
    fault?_eq_none_iff.mp (by decide +kernel)
  obtain ⟨hkeep, hstyle⟩ := rules_of_read he
  obtain ⟨-, -, -, hrules⟩ :=
    name_after_history [(.empty, .name ['/', '/', 'b']), (.empty, .size (-1))] (.ofRecord he)
  rw [hkeep, hstyle] at hrules
  exact ⟨e, he, hrules.mpr nofun⟩

/-- Nothing but directories. -/
def onlyDirectories : FileView where
  stat _ := .ok { kind := .directory, size := 0, modified := .ofSeconds 0 }
  children _ := .ok []

/-- An entry of Windows after an extended header with a backslash in the name. -/
def backslashMerged : Entry :=
  Edit.after (mergeSparse .gnu1 [(ExtendedHeader.gnuRealSize, ['1']),
    (ExtendedHeader.gnuName, ['a', '\\', 'b'])]) (ofName (.ofSeconds 0) ['x'] false .windows)

/-- Setting any of the three names would have changed it. -/
theorem taken_names_not_normalized :
    (ofRecord .utf8 rootedRecord).toOption.map (fun e => (e.keepLeading, e.name)) =
      some (false, ['/', 'a']) ∧
    (Entry.ofFileNamed onlyDirectories ['/'] ['/']).toOption.map
      (fun e => (e.keepLeading, e.name)) = some (false, ['/']) ∧
    backslashMerged.pathStyle = .windows ∧ backslashMerged.name = ['a', '\\', 'b'] := by
  refine ⟨?_, ?_, ?_, ?_⟩ <;> decide +kernel

end Entry

end TarHeader
