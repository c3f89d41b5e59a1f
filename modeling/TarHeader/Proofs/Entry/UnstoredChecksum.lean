import TarHeader.Proofs.Checksum.Corruption
import TarHeader.Proofs.Checksum.FirstRun
import TarHeader.Proofs.Entry.Sealing

/- Headers that store no checksum. Without a digit in its field the stored number is zero, which is
   not told apart from a zero that was stored. The unsigned sum is never zero, as the field itself
   counts as eight spaces. The signed sum is zero if the other octets make up for the spaces, so
   such a header is taken for right just then (`checksumOk_iff_of_unstored`). Octets below 0x80 never
   do; a name in letters of two octets can (`blankedTimetable_accepted`). -/
namespace TarHeader

theorem Record.read_blank_checksum (r : Record) :
    r.blank.read Layout.checksum = List.replicate 8 0x20 := by
  rw [blank, read_put_self, fit_of_length_eq (List.length_replicate)]
  rfl

namespace Checksum

/-- The octets outside the checksum field. -/
def around (r : Record) : Bytes :=
  r.octets.take Layout.checksum.offset ++ r.octets.drop Layout.checksum.stop

theorem octets_blank (r : Record) : r.blank.octets =
    r.octets.take Layout.checksum.offset ++
      (List.replicate 8 0x20 ++ r.octets.drop Layout.checksum.stop) := by
  rw [Record.blank, Record.octets_put, fit_of_length_eq (List.length_replicate)]
  rfl

/-- The spaces in the place of the field weigh 256. -/
theorem signedSum_blank (r : Record) :
    signedSum r.blank.octets = signedSum (around r) + 256 := by
  have hspaces : signedSum (List.replicate 8 0x20) = 256 := by decide
  rw [octets_blank, around, signedSum_append, signedSum_append, signedSum_append, hspaces]
  omega

theorem sum_blank (r : Record) : sum r.blank.octets = sum (around r) + 256 := by
  have hspaces : sum (List.replicate 8 0x20) = 256 := by decide
  rw [octets_blank, around, sum_append, sum_append, sum_append, hspaces]
  omega

theorem signedSum_nonneg_of_low {bs : Bytes} (h : ∀ b ∈ bs, isHigh b = false) :
    0 ≤ signedSum bs := by
  have hcount : bs.countP isHigh = 0 := List.countP_eq_zero.mpr fun b hb => by simp [h b hb]
  have hsum := sum_eq_signedSum_add bs
  rw [hcount] at hsum
  omega

/-- A field without a digit stores zero. -/
theorem storedNumber_eq_zero {bs : Bytes} (h : ∀ b ∈ storedField bs, Octal.isDigit b = false) :
    storedNumber bs = 0 := by
  have hrun : FirstRun (storedField bs) (storedField bs) [] [] :=
    { eq_append := (List.append_nil _).symm
      junk := h
      digits := nofun
      length_le := Nat.zero_le 6
      ends := nofun
      found := fun _ => rfl }
  exact hrun.storedNumber_eq

theorem verify_iff_of_unstored {r : Record}
    (h : ∀ b ∈ r.read Layout.checksum, Octal.isDigit b = false) :
    verify r.octets = true ↔ signedSum (around r) = -256 := by
  rw [verify_iff, stored_scan_eq, ← storedNumber, storedNumber_eq_zero h, r.blanked_octets,
    signedSum_blank, sum_blank]
  omega

end Checksum

namespace Entry

variable {r : Record}

/-- A header without a digit in its checksum field is taken for right if, and only if, its other
    octets add up to -256 as signed ones. -/
theorem checksumOk_iff_of_unstored
    (h : ∀ b ∈ r.read Layout.checksum, Octal.isDigit b = false) :
    (Checksum.verify r.octets = true ↔ Checksum.signedSum (Checksum.around r) = -256) ∧
    (∀ files cs, ∀ e e' : Entry,
      (e.read files cs r = .ok e' ∨ e.readStrict files cs r = .ok e') →
        (e'.checksumOk = true ↔ Checksum.signedSum (Checksum.around r) = -256)) ∧
    ((∀ b ∈ Checksum.around r, Checksum.isHigh b = false) → Checksum.verify r.octets = false) := by
  have hverify := Checksum.verify_iff_of_unstored h
  refine ⟨hverify, ?_, ?_⟩
  · rintro files cs e e' (hread | hread)
    · rw [checksumOk_of_read hread, hverify]
    · rw [checksumOk_of_readStrict hread, hverify]
  · intro hlow
    have hsum := Checksum.signedSum_nonneg_of_low hlow
    rw [Bool.eq_false_iff]
    intro htrue
    have hneg := hverify.mp htrue
    omega

/-- A name whose signed octets make up for all the others of its header. -/
def timetable : Text := "расписание занятий на второй семестр 2022.pdf".toList

/-- A file's header is written as it should be, and its checksum field is then left blank. -/
theorem blankedTimetable_accepted : ∃ r e',
    (ofName (.ofSeconds 0) timetable false .unix).write .utf8 false = .ok r ∧
    r.blank.read Layout.checksum = List.replicate 8 0x20 ∧
    ofRecord .utf8 r.blank = .ok e' ∧ e'.checksumOk = true := by
  have hcopied : fault? (do
      let r ← (ofName (.ofSeconds 0) timetable false .unix).write .utf8 false
      ofRecord .utf8 r.blank) = none := by decide +kernel
  have hsum : ((ofName (.ofSeconds 0) timetable false .unix).write .utf8 false).toOption.map
      (fun r => Checksum.signedSum (Checksum.around r.blank)) = some (-256) := by decide +kernel
  obtain ⟨e', he'⟩ := fault?_eq_none_iff.mp hcopied
  obtain ⟨r, hr, he'⟩ := Fault.bind_eq_ok.mp he'
  rw [hr] at hsum
  have hblank : r.blank.read Layout.checksum = List.replicate 8 0x20 := r.read_blank_checksum
  have hunstored : ∀ b ∈ r.blank.read Layout.checksum, Octal.isDigit b = false := by
    intro b hb
    rw [hblank] at hb
    rw [List.eq_of_mem_replicate hb]
    rfl
  have haccepted := (checksumOk_iff_of_unstored hunstored).2.1 _ _ _ _ (.inl he')
  exact ⟨r, e', hr, hblank, he', haccepted.mpr (Option.some.inj hsum)⟩

end Entry

end TarHeader
