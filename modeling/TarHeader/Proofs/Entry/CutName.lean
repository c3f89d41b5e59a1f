import TarHeader.Proofs.Entry.RoundTrip

/- Names that a header has no room for. A name that does not fit its field, and that POSIX has no
   way to split, is cut where the field ends, and from then on nothing tells it from a name that was
   as short from the start (`exists_write_eq_cut`). So attributes of which all but the name has room
   are written and read back whatever their name is, as attributes under what is left of it
   (`StorableButName.exists_kept`). -/
namespace TarHeader.Attributes

variable {cs : Charset} {extended : Bool} {a : Attributes} {t : Text}

/-- The attributes under another name. -/
def withName (a : Attributes) (t : Text) : Attributes := { a with name := t }

theorem slashed_withName_of_hasFlag (hflag : a.hasFlag .directory = true) (t : Text) :
    (a.withName t).slashed = withSlash t := if_pos hflag

theorem slashed_withName_of_not_hasFlag (hflag : a.hasFlag .directory = false) (t : Text) :
    (a.withName t).slashed = t := by
  rw [slashed, if_neg]
  · rfl
  · exact fun h => Bool.false_ne_true (hflag.symm.trans h)

/-- A header has room for the name: it fits its field, or is one that POSIX splits. -/
def NameFits (cs : Charset) (a : Attributes) : Prop :=
  cs.EncodesWithin Layout.name.width a.name ∨
    a.magic = Magic.posixText ∧ a.version = Magic.posixVersionText ∧
      ∃ split ∈ NameSplit.candidates a.name, NameSplit.BothFit cs split

theorem tail_withName (h : Format.ofMagic a.magic a.version = .posix →
    NameSplit.find cs a.name = NameSplit.find cs t) : a.tail cs = (a.withName t).tail cs := by
  unfold tail withName
  cases hformat : Format.ofMagic a.magic a.version with
  | posix => simp only [h hformat]
  | oldGnu | xstar | legacy => rfl

/-- Names that leave the same in every field are written alike. -/
theorem write_withName (htail : a.tail cs = (a.withName t).tail cs)
    (hname : TextField.encode cs Layout.name.width a.name =
      TextField.encode cs Layout.name.width t) :
    a.write cs extended = (a.withName t).write cs extended := by
  have hshared : Content.encodeAll extended (a.shared cs) =
      Content.encodeAll extended ((a.withName t).shared cs) := by
    rw [show a.shared cs = (Layout.name, .text cs a.name) :: (a.shared cs).tail from rfl,
      show (a.withName t).shared cs = (Layout.name, .text cs t) :: (a.shared cs).tail from rfl,
      Content.encodeAll_cons, Content.encodeAll_cons]
    simp only [Content.encode, hname]
  rw [write, write, hshared, htail]

theorem find_eq_none_of_not_fits (hcs : cs.Faithful) (hname : cs.Encodable a.name)
    (h : ¬ a.NameFits cs) (hposix : a.magic = Magic.posixText)
    (hversion : a.version = Magic.posixVersionText) : NameSplit.find cs a.name = .ok none := by
  rw [NameSplit.find_eq_none_iff (hcs.encodesParts hname)]
  refine .inr fun before after hsplits => h (.inr ⟨hposix, hversion, (before, after), ?_⟩)
  exact NameSplit.splits_iff.mp hsplits

/-- A name without room is written as what is left of it after the cut. -/
theorem exists_write_eq_cut (hcs : cs.Faithful) (hname : cs.Encodable a.name)
    (h : ¬ a.NameFits cs) : ∃ n, TextField.CutAt cs Layout.name.width a.name n ∧
      ∀ extended, a.write cs extended = (a.withName (a.name.take n)).write cs extended := by
  obtain ⟨n, hcut, hencode⟩ := TextField.exists_cutAt (w := Layout.name.width) hcs.encode_nil
    fun s hs => hcs.encodable_of_infix hs.isInfix hname
  refine ⟨n, hcut, fun extended => write_withName (tail_withName fun hformat => ?_)
    (hencode.trans hcut.encode_take.symm)⟩
  obtain ⟨hposix, hversion⟩ := Format.ofMagic_eq_posix_iff.mp hformat
  rw [find_eq_none_of_not_fits hcs hname h hposix hversion, NameSplit.find_eq_none hcut.fits]

/-- What a header keeps of a name: all of it if there is room, and else what fits the name field. -/
def Keeps (cs : Charset) (a : Attributes) (kept : Text) : Prop :=
  a.NameFits cs ∧ kept = a.name ∨
    ¬ a.NameFits cs ∧ ∃ n, TextField.CutAt cs Layout.name.width a.name n ∧ kept = a.name.take n

/-- Attributes that are storable under any name with room. -/
def StorableButName (cs : Charset) (extended : Bool) (a : Attributes) : Prop :=
  ∀ t, NulFree t → cs.Encodable t → (a.withName t).NameFits cs →
    (a.withName t).Storable cs extended

/-- What is written under a name of any length is read back under what is kept of it. -/
theorem StorableButName.exists_kept (h : a.StorableButName cs extended) (hcs : cs.Faithful)
    (hnul : NulFree a.name) (hname : cs.Encodable a.name) :
    ∃ kept r, a.Keeps cs kept ∧ a.write cs extended = .ok r ∧
      read cs none r = .ok ((a.withName kept).stored extended) := by
  by_cases hfits : a.NameFits cs
  · have hstorable := h a.name hnul hname hfits
    obtain ⟨r, hr⟩ := hstorable.exists_write hcs
    exact ⟨a.name, r, .inl ⟨hfits, rfl⟩, hr, hstorable.read_write hcs hr⟩
  · obtain ⟨n, hcut, hsame⟩ := exists_write_eq_cut hcs hname hfits
    have hstorable := h (a.name.take n) (fun c hc => hnul c (List.mem_of_mem_take hc))
      hcut.fits.encodable (.inl hcut.fits)
    obtain ⟨r, hr⟩ := hstorable.exists_write hcs
    refine ⟨a.name.take n, r, .inr ⟨hfits, n, hcut, rfl⟩, ?_, hstorable.read_write hcs hr⟩
    rw [hsame, hr]

end TarHeader.Attributes
