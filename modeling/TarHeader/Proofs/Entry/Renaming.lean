import TarHeader.Proofs.Entry.NameHistory
import TarHeader.Proofs.PathStyle.Device

/- What becomes of an entry that is given the name it has, and of one that is given the name of
   another. A name that an entry was given is normalized, and stays so as long as no other is taken
   from an archive (`Given.normalized`); then all that giving it again can take off is a device, as
   a name may hold one behind another (`name_given_again_iff`). -/
namespace TarHeader.Entry

variable {files : FileView} {e : Entry}

/-- Entries whose name was given to them: made for a name or renamed, and perhaps changed since in
    ways that take no name from an archive. -/
inductive Given : Entry → Prop where
  | made (now : Instant) (name : Text) (keepLeading : Bool) (style : PathStyle) :
      Given (ofName now name keepLeading style)
  | renamed (files : FileView) (e : Entry) (name : Text) :
      Given (Edit.after ((Change.name name).run files) e)
  | changed (files : FileView) (c : Change) {e : Entry} (h : Given e)
      (htaken : c.taken? files e = none) : Given (Edit.after (c.run files) e)

theorem lastTaken_eq_none {c : Change} (h : c.taken? files e = none) :
    c.lastTaken files e none = none := by
  unfold Change.lastTaken
  split
  · rfl
  · rw [h, Option.or_none]

theorem Given.normalized (h : Given e) : e.pathStyle.Normalized e.keepLeading e.name := by
  induction h with
  | made now name keepLeading style => exact PathStyle.normalized_normalize style keepLeading name
  | renamed files e name => exact PathStyle.normalized_normalize e.pathStyle e.keepLeading name
  | changed files c h htaken ih =>
    have hnamed := named_run files c (named_of_normalized ih)
    rw [hnamed.keepLeading, hnamed.pathStyle]
    exact hnamed.given (lastTaken_eq_none htaken)

/-- A name that was normalized for one entry is so for another of the same style, but for slashes
    in front that the other does not keep. -/
theorem normalized_elsewhere_iff {style : PathStyle} {keepLeading keepLeading' : Bool} {t : Text}
    (h : style.Normalized keepLeading t) :
    style.Normalized keepLeading' t ↔ (keepLeading' = false → t.head? ≠ some '/') :=
  ⟨fun h' => h'.head, fun hhead => ⟨hhead, h.separated⟩⟩

/-- A normalized name is normalized to itself unless there is a device in front of it. So an entry
    that was given its name stays as it is when it is given that again, and another of its style
    that is given the name has it, unless there is a device in it, or slashes in front that
    the other does not keep. -/
theorem name_given_again_iff (files : FileView) :
    (∀ (style : PathStyle) (keepLeading : Bool) (t : Text),
      style.normalize keepLeading (style.normalize keepLeading t) = style.normalize keepLeading t ↔
        ¬ style.HasDevice (style.normalize keepLeading t)) ∧
    ∀ e, Given e →
      (Edit.after ((Change.name e.name).run files) e = e ↔ ¬ e.pathStyle.HasDevice e.name) ∧
      ∀ e' : Entry, e'.pathStyle = e.pathStyle →
        ((Edit.after ((Change.name e.name).run files) e').name = e.name ↔
          ¬ e.pathStyle.HasDevice e.name ∧ (e'.keepLeading = false → e.name.head? ≠ some '/')) := by
  refine ⟨fun style keepLeading t => PathStyle.normalize_normalize_iff, fun e he => ?_⟩
  have hnormalized := he.normalized
  constructor
  · have hself : Edit.after ((Change.name e.name).run files) e = e ↔
        e.pathStyle.normalize e.keepLeading e.name = e.name :=
      ⟨fun h => congrArg (·.name) h, fun h => congrArg (fun t => { e with name := t }) h⟩
    rw [hself, PathStyle.normalize_eq_self_iff, and_iff_right hnormalized]
  · intro e' hstyle
    show e'.pathStyle.normalize e'.keepLeading e.name = e.name ↔ _
    rw [hstyle, PathStyle.normalize_eq_self_iff, normalized_elsewhere_iff hnormalized, and_comm]

/-- A file of Windows behind a drive, with a colon in its own name. -/
def coloned : Entry := ofName (.ofSeconds 0) ['C', ':', '\\', '1', ':', 'x'] false .windows

/-- Another file of Windows, which keeps slashes in front of names, gets the same name. -/
theorem coloned_given_again :
    Edit.after ((Change.name coloned.name).run .empty) coloned = coloned ∧
      (Edit.after ((Change.name coloned.name).run .empty)
        (ofName (.ofSeconds 0) ['y'] true .windows)).name = coloned.name := by
  have hgiven : Given coloned := .made (.ofSeconds 0) ['C', ':', '\\', '1', ':', 'x'] false .windows
  have hdevice : ¬ coloned.pathStyle.HasDevice coloned.name :=
    PathStyle.dropDevice_eq_self_iff.mp (by decide)
  obtain ⟨hself, hother⟩ := (name_given_again_iff .empty).2 coloned hgiven
  exact ⟨hself.mpr hdevice, (hother _ rfl).mpr ⟨hdevice, nofun⟩⟩

/-- A file of Windows with what looks like a drive behind another. -/
def twoDrives : Entry := ofName (.ofSeconds 0) ['a', ':', 'b', ':', 'c'] false .windows

/-- The second drive is lost when the name is given again, as is a second volume, and a slash in
    front when an entry gets the name that does not keep it. -/
theorem given_names_change :
    PathStyle.windows.normalize false ['a', ':', 'b', ':', 'c'] = ['b', ':', 'c'] ∧
    PathStyle.windows.normalize false ['b', ':', 'c'] = ['c'] ∧
    PathStyle.netWare.normalize true ['a', ':', 'b', ':', 'c'] = ['b', ':', 'c'] ∧
    PathStyle.netWare.normalize true ['b', ':', 'c'] = ['c'] ∧
    Edit.after ((Change.name twoDrives.name).run .empty) twoDrives ≠ twoDrives ∧
    (Edit.after ((Change.name (ofName (.ofSeconds 0) ['/', 'a'] true .unix).name).run .empty)
      (ofName (.ofSeconds 0) ['x'] false .unix)).name = ['a'] := by
  refine ⟨?_, ?_, ?_, ?_, ?_, ?_⟩ <;> decide

end TarHeader.Entry
