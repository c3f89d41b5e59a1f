import TarHeader.Entry.Change
import TarHeader.Entry.File
import TarHeader.Proofs.Attributes.ReadBack
import TarHeader.Proofs.Edit
import TarHeader.Proofs.Entry.Acceptance
import TarHeader.Proofs.Entry.Refusal

/- Whether written headers can be read. Nothing that is done to an entry gives it a size that a header
   could not be read with (`Reachable.sizeReadable`), ids that large are not written, and times are
   never that large. The real size of old GNU alone takes any 64 bits, and is written in binary with
   all of them, although reading stops at 63; so a written header can be read unless it holds such a
   real size (`ofRecord_write_iff`). -/
namespace TarHeader

namespace Attributes

variable {cs : Charset} {extended : Bool} {a b : Attributes} {rest : List (Field × Content)}
  {r : Record}

theorem size_lt_of_read {bound : Option Bool} (h : read cs bound r = .ok a) :
    a.size.toNat < 2 ^ 63 :=
  (Numeral.readable_uint64_iff _).mp (Numeral.readable_of_readWord (numbersOf_of_read h).size)

theorem realSize_lt_of_read (h : read cs none r = .ok a) : a.realSize.toNat < 2 ^ 63 := by
  obtain ⟨b, hb, htail⟩ := read_eq_ok_iff.mp h
  have hzero : b.realSize.toNat < 2 ^ 63 := by
    rw [hb.realSize]
    decide
  cases htail with
  | oldGnu _ hsize => exact (Numeral.readable_uint64_iff _).mp (Numeral.readable_of_readWord hsize)
  | xstar | posix => exact hzero

/-- A real size beyond 63 bits, in a format and a mode that write it. -/
def UnreadableRealSize (extended : Bool) (a : Attributes) : Prop :=
  extended = true ∧ a.magic = Magic.oldGnuText ∧ 2 ^ 63 ≤ a.realSize.toNat

theorem Written.sharedNumericFields_hold (h : Written cs extended a rest r)
    (hsize : a.size.toNat < 2 ^ 63) : ∀ n ∈ Record.sharedNumericFields, n.Holds r := by
  have hnumbers := h.keepsNumbers fun _ => hsize
  simp only [Record.sharedNumericFields, List.forall_mem_cons, List.not_mem_nil,
    false_imp_iff, implies_true, and_true]
  exact ⟨(NumericField.holds_iff_readWord NumericField.isSome_uint32_iff).mpr ⟨_, hnumbers.mode⟩,
    (NumericField.holds_iff_readWord NumericField.isSome_uint64_iff).mpr ⟨_, hnumbers.userId⟩,
    (NumericField.holds_iff_readWord NumericField.isSome_uint64_iff).mpr ⟨_, hnumbers.groupId⟩,
    (NumericField.holds_iff_readWord NumericField.isSome_uint64_iff).mpr ⟨_, hnumbers.size⟩,
    (NumericField.holds_iff_readWord NumericField.isSome_int64_iff).mpr ⟨_, hnumbers.modTime⟩,
    (NumericField.holds_iff_readWord NumericField.isSome_uint32_iff).mpr ⟨_, hnumbers.devMajor⟩,
    (NumericField.holds_iff_readWord NumericField.isSome_uint32_iff).mpr ⟨_, hnumbers.devMinor⟩⟩

/-- The real size field that old GNU writes. -/
theorem Written.realSize_holds_iff (h : Written cs extended a rest r)
    (hmem : (Layout.OldGnu.realSize, .number (Word.toInt a.realSize)) ∈
      (a.shared cs).tail ++ rest) (hmagic : a.magic = Magic.oldGnuText) :
    NumericField.realSize.Holds r ↔ ¬ a.UnreadableRealSize extended := by
  have hword := Numeral.readable_uint64_iff a.realSize
  constructor
  · rintro hholds ⟨hext, -, hlarge⟩
    obtain ⟨bs, hbs, hread⟩ := h.read_of_mem hmem
    rw [fit_of_length_eq (Numeral.length_write (by decide) hbs)] at hread
    have hdecode := Numeral.decode_write (by decide) hbs
    have hkept : Numeral.kept extended Layout.OldGnu.realSize.width (Word.toInt a.realSize) =
        Word.toInt a.realSize := if_pos (.inl hext)
    rw [hkept, if_neg (mt hword.mp (Nat.not_lt.mpr hlarge))] at hdecode
    obtain ⟨v, hv, -⟩ := hholds
    rw [show NumericField.realSize.field = Layout.OldGnu.realSize from rfl, hread, hdecode] at hv
    cases hv
  · intro hreadable
    rw [NumericField.holds_iff_readWord NumericField.isSome_uint64_iff]
    refine ⟨_, h.readWord hmem rfl (by decide) fun hext => hword.mpr ?_⟩
    exact Nat.lt_of_not_le fun hlarge => hreadable ⟨hext, hmagic, hlarge⟩

theorem Written.numericFields_hold_iff (h : Written cs extended a rest r)
    (hsize : a.size.toNat < 2 ^ 63) :
    (∀ n ∈ r.numericFields, n.Holds r) ↔ ¬ a.UnreadableRealSize extended := by
  have hshared := h.sharedNumericFields_hold hsize
  have hne : a.magic ≠ Magic.oldGnuText → ¬ a.UnreadableRealSize extended :=
    fun hmagic hunreadable => hmagic hunreadable.2.1
  have hposix : a.magic = Magic.posixText →
      ((r.read Layout.magic = Magic.oldGnu → NumericField.realSize.Holds r) ↔
        ¬ a.UnreadableRealSize extended) := by
    intro hmagic
    refine iff_of_true (fun hgnu => ?_) (hne (ne_oldGnu_of_posix hmagic))
    rw [h.read_magic_of_posix hmagic] at hgnu
    exact absurd hgnu (by decide)
  rw [Record.forall_numericFields_iff, and_iff_right hshared]
  -- Without the magic of old GNU nothing stands in the field, or nothing is read from it.
  cases htail : h.tailOf with
  | oldGnu hmagic =>
    rw [← h.realSize_holds_iff (List.mem_append_right _ (by simp)) hmagic]
    exact imp_iff_right (h.read_magic_of_oldGnu hmagic)
  | split before after hmagic _ _ => exact hposix hmagic
  | whole hmagic _ _ => exact hposix hmagic
  | legacy hmagic _ =>
    refine iff_of_true (fun _ => ?_) (hne hmagic)
    have hapart : ∀ g ∈ Layout.checksum :: Layout.name :: fieldsAfterName ++ [],
        g.Apart Layout.OldGnu.realSize := by decide
    refine ⟨0, ?_, by decide, by decide⟩
    rw [show NumericField.realSize.field = Layout.OldGnu.realSize from rfl,
      h.read_of_apart hapart]
    rfl

end Attributes

namespace Entry

/-- Sizes that can be read from a numeric field. -/
def SizeReadable (e : Entry) : Prop := e.size.toNat < 2 ^ 63

theorem sizeReadable_readStrict {files : FileView} {cs : Charset} {r : Record} {e e' : Entry}
    (h : e.readStrict files cs r = .ok e') : e'.SizeReadable :=
  Attributes.size_lt_of_read (read_of_readStrict h)

theorem sizeReadable_read {files : FileView} {cs : Charset} {r : Record} {e e' : Entry}
    (h : e.read files cs r = .ok e') : e'.SizeReadable := by
  rcases Charset.orFallback_eq_ok_iff.mp h with h | ⟨-, h⟩ <;> exact sizeReadable_readStrict h

theorem sizeReadable_checked {n : Int64} {m : UInt64} (h : checked .size n = .ok m) :
    m.toNat < 2 ^ 63 := by
  unfold checked at h
  cases hm : (Word.ofInt? n.toInt : Option UInt64) with
  | none =>
    rw [hm] at h
    cases h
  | some m' =>
    rw [hm] at h
    cases h
    rw [← Numeral.readable_uint64_iff, Word.toInt_of_ofInt? hm]
    exact Numeral.readable_int64 n

theorem sizeReadable_mergeSparse (dialect : SparseDialect) (h : ExtendedHeader) :
    Edit.Preserves SizeReadable (mergeSparse dialect h) := by
  cases dialect with
  | gnu0 =>
    refine Edit.Preserves.lift_bind fun t _ => Edit.Preserves.lift_bind fun realSize _ => ?_
    refine Edit.Preserves.bind (Edit.Preserves.modify' ?_) fun _ => ?_
    · exact fun e he => he
    cases h.lookup ExtendedHeader.gnuName with
    | none => exact Edit.Preserves.pure' ()
    | some name => exact Edit.Preserves.modify' fun e he => he
  | gnu1 =>
    refine Edit.Preserves.lift_bind fun t _ => Edit.Preserves.lift_bind fun realSize _ => ?_
    exact Edit.Preserves.lift_bind fun name _ => Edit.Preserves.modify' fun e he => he
  | star =>
    exact Edit.Preserves.lift_bind fun realSize _ => Edit.Preserves.modify' fun e he => he

/-- No change, completed or not, gives an entry a size that cannot be read. -/
theorem sizeReadable_run (files : FileView) (c : Change) :
    Edit.Preserves SizeReadable (c.run files) := by
  cases c with
  | size n =>
    refine Edit.Preserves.lift_bind fun m hm => Edit.Preserves.modify' fun e _ => ?_
    exact sizeReadable_checked hm
  | devMajor n | devMinor n =>
    exact Edit.Preserves.lift_bind fun m _ => Edit.Preserves.modify' fun e he => he
  | header cs r => exact Edit.Preserves.replace fun e e' _ h => sizeReadable_read h
  | headerStrict cs r => exact Edit.Preserves.replace fun e e' _ h => sizeReadable_readStrict h
  | sparse dialect h => exact sizeReadable_mergeSparse dialect h
  | _ => exact Edit.Preserves.modify' fun e he => he

/-- Entries that any history leads to: one that was made for a name, for a file of less than 2^63
    octets or from a header, after any changes, faults included. -/
inductive Reachable : Entry → Prop where
  | ofName (now : Instant) (name : Text) (keepLeading : Bool) (style : PathStyle) :
      Reachable (ofName now name keepLeading style)
  | ofNameAndFlag (now : Instant) (name : Text) (flag : UInt8) (keepLeading : Bool) :
      Reachable (ofNameAndFlag now name flag keepLeading)
  | ofFileNamed {files : FileView} {path name : Text} {e : Entry}
      (hsize : ∀ stat, files.stat path = .ok stat → stat.size.toNat < 2 ^ 63)
      (h : ofFileNamed files path name = .ok e) : Reachable e
  | ofRecord {cs : Charset} {r : Record} {e : Entry} (h : ofRecord cs r = .ok e) : Reachable e
  | change (files : FileView) (c : Change) {e : Entry} (h : Reachable e) :
      Reachable (Edit.after (c.run files) e)

theorem Reachable.sizeReadable {e : Entry} (h : Reachable e) : e.SizeReadable := by
  have hzero : (0 : UInt64).toNat < 2 ^ 63 := by decide
  induction h with
  | ofName now name keepLeading style => exact hzero
  | ofNameAndFlag now name flag keepLeading =>
    unfold Entry.ofNameAndFlag
    simp only
    split <;> exact hzero
  | @ofFileNamed files path name e hsize h =>
    unfold Entry.ofFileNamed at h
    obtain ⟨stat, hstat, h⟩ := Fault.bind_eq_ok.mp h
    cases hs : files.stat path with
    | error cause =>
      rw [hs] at hstat
      cases hstat
    | ok stat' =>
      rw [hs] at hstat
      cases hstat
      simp only at h
      split at h
      · cases Fault.pure_eq_ok.mp h
        exact hzero
      · cases Fault.pure_eq_ok.mp h
        exact hsize stat hs
  | ofRecord h => exact sizeReadable_read h
  | change files c _ ih => exact sizeReadable_run files c _ ih

theorem exists_written {cs : Charset} {extended : Bool} {e : Entry} {r : Record}
    (h : e.write cs extended = .ok r) :
    ∃ cs' rest, Attributes.Written cs' extended e.toAttributes rest r := by
  rcases writeStrict_of_write h with h | ⟨-, h⟩
  · exact ⟨cs, Attributes.exists_written h⟩
  · exact ⟨.fallback, Attributes.exists_written h⟩

/-- A header that was written for an entry with a readable size is read again, unless it holds an
    unreadable real size. -/
theorem SizeReadable.exists_ofRecord_iff {cs : Charset} {extended : Bool} {e : Entry} {r : Record}
    (hsize : e.SizeReadable) (hcs : cs.RefusesOctets) (h : e.write cs extended = .ok r) :
    (∃ e', ofRecord cs r = .ok e') ↔ ¬ e.toAttributes.UnreadableRealSize extended := by
  obtain ⟨cs', rest, hwritten⟩ := exists_written h
  rw [← hwritten.numericFields_hold_iff hsize, ← Record.numberFault_eq_none_iff, ofRecord,
    ← fault?_eq_none_iff, fault?_read hcs]

/-- What is written for a reachable entry can be read again, whatever its texts and numbers are,
    unless it holds a real size beyond 63 bits. Writing takes such a size and reading does not. -/
theorem ofRecord_write_iff {cs : Charset} {extended : Bool} {e : Entry} {r : Record}
    (hcs : cs.RefusesOctets) (he : Reachable e) (h : e.write cs extended = .ok r) :
    (∃ e', ofRecord cs r = .ok e') ↔
      ¬ (extended = true ∧ e.magic = Magic.oldGnuText ∧ 2 ^ 63 ≤ e.realSize.toNat) :=
  he.sizeReadable.exists_ofRecord_iff hcs h

/-- An entry of old GNU with the smallest real size that cannot be read. -/
def hugeSparse : Entry :=
  Edit.after ((Change.realSize 0x8000000000000000).run .empty)
    (Edit.after ((Change.magic Magic.oldGnuText).run .empty)
      (ofName (.ofSeconds 0) ['a'] false .unix))

theorem hugeSparse_written_not_read :
    ∃ r, hugeSparse.write .utf8 true = .ok r ∧ ¬ ∃ e', ofRecord .utf8 r = .ok e' := by
  have hwrite : fault? (hugeSparse.write .utf8 true) = none :=
    fault?_write Charset.utf8_refusesText rfl
  have hreachable : Reachable hugeSparse :=
    .change .empty (.realSize _) <| .change .empty (.magic _) <|
      .ofName (.ofSeconds 0) ['a'] false .unix
  obtain ⟨r, hr⟩ := fault?_eq_none_iff.mp hwrite
  refine ⟨r, hr, ?_⟩
  rw [ofRecord_write_iff Charset.utf8_refusesOctets hreachable hr, not_not]
  exact ⟨rfl, rfl, by decide⟩

end Entry

end TarHeader
