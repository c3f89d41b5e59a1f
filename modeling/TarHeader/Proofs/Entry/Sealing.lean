import TarHeader.Buffer
import TarHeader.Entry.Header
import TarHeader.Proofs.Attributes.Written
import TarHeader.Proofs.Edit

/- Right checksums in what is written. Storing the sum of a blank record's octets in its checksum field
   drops none of the sum and seals the record. Sealing is also the last step of writing a header, so
   no field is written after the sum was taken, and an entry that is read from the header notes a
   right checksum (`written_checksum`). -/
namespace TarHeader

namespace Record

/-- The buffer of the checksum field takes the sum of the blank record. -/
theorem putChecksum_blank (r : Record) :
    Buffer.putChecksum (Checksum.sum r.blank.octets) (r.blank.read Layout.checksum) =
      .ok () (Checksum.field Layout.checksum.width (Checksum.sum r.blank.octets)) := by
  have hencode : Checksum.encode (r.blank.read Layout.checksum).length
      (Checksum.sum r.blank.octets) =
        .ok (Checksum.field Layout.checksum.width (Checksum.sum r.blank.octets)) := by
    rw [length_read]
    rfl
  exact Edit.replace_eq_ok_iff.mpr hencode

end Record

namespace Entry

variable {files : FileView} {cs : Charset} {extended : Bool} {e e' : Entry} {r r₀ : Record}

theorem storeStrict_eq_ok_iff :
    e.storeStrict cs extended r₀ = .ok () r ↔ e.writeStrict cs extended = .ok r := by
  refine Edit.lift_bind_eq_ok_iff.trans ⟨?_, fun h => ⟨r, h, rfl⟩⟩
  rintro ⟨r', hr', hset⟩
  cases hset
  exact hr'

theorem store_eq_ok_iff : e.store cs extended r₀ = .ok () r ↔ e.write cs extended = .ok r := by
  refine Edit.lift_bind_eq_ok_iff.trans ⟨?_, fun h => ⟨r, h, rfl⟩⟩
  rintro ⟨r', hr', hset⟩
  cases hset
  exact hr'

theorem sealed_of_writeStrict (h : e.writeStrict cs extended = .ok r) : r.Sealed := by
  obtain ⟨first, rest, last, -, -, -, rfl⟩ := Attributes.write_eq_ok_iff.mp h
  exact Record.sealed_seal _

theorem sealed_of_write (h : e.write cs extended = .ok r) : r.Sealed := by
  rcases Charset.orFallback_eq_ok_iff.mp h with h | ⟨-, h⟩ <;> exact sealed_of_writeStrict h

theorem checksumOk_of_readStrict (h : e.readStrict files cs r = .ok e') :
    e'.checksumOk = Checksum.verify r.octets := by
  obtain ⟨a, -, h⟩ := Fault.bind_eq_ok.mp h
  cases Fault.pure_eq_ok.mp h
  rfl

theorem checksumOk_of_read (h : e.read files cs r = .ok e') :
    e'.checksumOk = Checksum.verify r.octets := by
  rcases Charset.orFallback_eq_ok_iff.mp h with h | ⟨-, h⟩ <;> exact checksumOk_of_readStrict h

/-- The sum of any record is stored whole and verifies, and a header that was written stores the sum of
    what it holds. -/
theorem written_checksum (r : Record) :
    (∃ field, Buffer.putChecksum (Checksum.sum r.blank.octets) (r.blank.read Layout.checksum) =
        .ok () field ∧
      Checksum.Stores ((r.blank.put Layout.checksum field).read Layout.checksum)
        (Checksum.sum r.blank.octets) ∧
      Checksum.verify (r.blank.put Layout.checksum field).octets = true) ∧
    ∀ cs extended r₀, ∀ e : Entry,
      (e.store cs extended r₀ = .ok () r ∨ e.storeStrict cs extended r₀ = .ok () r) →
        r.Sealed ∧ Checksum.verify r.octets = true ∧
        ∀ files cs', ∀ e' e'' : Entry,
          (e'.read files cs' r = .ok e'' ∨ e'.readStrict files cs' r = .ok e'') →
            e''.checksumOk = true := by
  constructor
  · refine ⟨_, r.putChecksum_blank, ?_, r.sealed_seal.verify⟩
    rw [← r.seal_eq, r.read_seal_checksum]
    exact Checksum.stores_field (Checksum.sum_lt r.blank)
  · intro cs extended r₀ e h
    have hsealed : r.Sealed := by
      rcases h with h | h
      · exact sealed_of_write (store_eq_ok_iff.mp h)
      · exact sealed_of_writeStrict (storeStrict_eq_ok_iff.mp h)
    refine ⟨hsealed, hsealed.verify, ?_⟩
    rintro files cs' e' e'' (hread | hread)
    · rw [checksumOk_of_read hread, hsealed.verify]
    · rw [checksumOk_of_readStrict hread, hsealed.verify]

/-- A header is put in the place of a record of zeros and read from there. -/
theorem written_checksum_noted : ∃ r e',
    ({ name := ['ä'] } : Entry).store .utf8 true Record.zero = .ok () r ∧ r.Sealed ∧
      ofRecord .utf8 r = .ok e' ∧ e'.checksumOk = true := by
  have hcopied : fault? (do
      ofRecord .utf8 (← ({ name := ['ä'] } : Entry).write .utf8 true)) = none := by decide +kernel
  obtain ⟨e', he'⟩ := fault?_eq_none_iff.mp hcopied
  obtain ⟨r, hr, he'⟩ := Fault.bind_eq_ok.mp he'
  have hstored : ({ name := ['ä'] } : Entry).store .utf8 true Record.zero = .ok () r :=
    store_eq_ok_iff.mpr hr
  obtain ⟨hsealed, -, hnoted⟩ := (written_checksum r).2 _ _ _ _ (.inl hstored)
  exact ⟨r, e', hstored, hsealed, he', hnoted _ _ _ _ (.inl he')⟩

end Entry

end TarHeader
